import AddonLint.Proofs.Dictionaries
import AddonLint.Proofs.Fallible
import AddonLint.Schema.Json

/-!
# Reading back what a schema writes

A value that is written by its schema can be read again, unless the schema confuses values: an
absent value with one that is written as `null`, or two fields of one name. Which members an
object has beside the fields does not matter to a record that is not closed. Of the fields of a
record only optional ones are left out, where nothing was said about them.
-/
namespace AddonLint

namespace Schema

/-- Whether some value of the schema is written as `null`. -/
def writesNull : Schema → Bool
  | .any => true
  | .nullable _ => true
  | _ => false

end Schema

mutual

/-- Whether a schema tells its values apart when it writes them. For an open record this depends
on the value: what it keeps may have the name of a field. -/
def Schema.isFaithful : Schema → Bool
  | .nullable inner => inner.isFaithful && !inner.writesNull
  | .list item => item.isFaithful
  | .dict item => item.isFaithful
  | .record _ _ fields => fields.isFaithful
  | .openRecord _ _ => false
  | _ => true

/-- Whether the fields of a record have different names and faithful schemas. -/
def FieldList.isFaithful : FieldList → Bool
  | .nil => true
  | .cons key _ schema rest => schema.isFaithful && !rest.keys.contains key && rest.isFaithful

end

theorem FieldList.isFaithful_cons {key : String} {presence : Presence} {schema : Schema}
    {rest : FieldList} : (FieldList.cons key presence schema rest).isFaithful = true ↔
      schema.isFaithful = true ∧ key ∉ rest.keys ∧ rest.isFaithful = true := by
  simp [FieldList.isFaithful, and_assoc]

namespace Schema

variable {s : Schema}

theorem toJson_ne_null (h : s.writesNull = false) (v : s.Val) : s.toJson v ≠ .null := by
  cases s with
  | any => cases h
  | nullable inner => cases h
  | openRecord expected fields =>
    obtain ⟨vals, extra⟩ := v
    simp [toJson]
  | _ => simp [toJson]

/-- Only the value of an absent field is written as `null`. -/
theorem eq_default_of_toJson (hs : s.isFaithful = true) {v : s.Val} (h : s.toJson v = .null) :
    v = s.default := by
  cases s with
  | any => exact h
  | nullable inner =>
    simp only [isFaithful, Bool.and_eq_true, Bool.not_eq_true'] at hs
    cases v with
    | none => rfl
    | some w => exact absurd h (toJson_ne_null hs.2 w)
  | openRecord expected fields => cases hs
  | _ => exact absurd h (toJson_ne_null rfl v)

/-- A schema reads back every value that it writes. -/
def ReadsBack (reading : Reading) (s : Schema) : Prop :=
  ∀ v : s.Val, s.ofJson reading (s.toJson v) = .ok v

end Schema

namespace FieldList

variable {reading : Reading} {key : String} {presence : Presence} {schema : Schema}
  {rest : FieldList}

/-- A field is left out if it is optional and has nothing to say, and written otherwise. -/
theorem toMembers_cons (key : String) (presence : Presence) (v : schema.Val) (vals : rest.Vals) :
    ((presence = .optional ∧ schema.toJson v = .null) ∧
      (cons key presence schema rest).toMembers (v, vals) = rest.toMembers vals) ∨
    (¬(presence = .optional ∧ schema.toJson v = .null) ∧
      (cons key presence schema rest).toMembers (v, vals) =
        (key, schema.toJson v) :: rest.toMembers vals) := by
  by_cases h : presence = .optional ∧ schema.toJson v = .null
  · obtain ⟨rfl, hnull⟩ := h
    exact .inl ⟨⟨rfl, hnull⟩, by simp only [toMembers, hnull]⟩
  · refine .inr ⟨h, ?_⟩
    rw [toMembers]
    exact fun hoptional hnull => h ⟨hoptional, hnull⟩

/-- The members that are written have the names of the fields, in their order. -/
theorem map_fst_toMembers_sublist : {fs : FieldList} → (vals : fs.Vals) →
    ((fs.toMembers vals).map Prod.fst).Sublist fs.keys
  | .nil, _ => .slnil
  | .cons key presence _ _, (v, vals) => by
    obtain ⟨-, hwritten⟩ | ⟨-, hwritten⟩ := toMembers_cons key presence v vals
    · rw [hwritten]
      exact (map_fst_toMembers_sublist vals).cons key
    · rw [hwritten]
      exact (map_fst_toMembers_sublist vals).cons_cons key

theorem mem_keys_of_mem_toMembers {fs : FieldList} {vals : fs.Vals} {m : String × Json}
    (hm : m ∈ fs.toMembers vals) : m.1 ∈ fs.keys :=
  (map_fst_toMembers_sublist vals).subset (List.mem_map_of_mem hm)

theorem lookup_toMembers_eq_none {fs : FieldList} (vals : fs.Vals) (h : key ∉ fs.keys) :
    (fs.toMembers vals).lookup key = none :=
  List.lookup_eq_none_iff.2 fun _ hm => bne_iff_ne.2 fun heq =>
    h (heq ▸ mem_keys_of_mem_toMembers hm)

/-- Only the members with the names of the fields are looked at. -/
theorem ofMembers_congr (reading : Reading) : {fs : FieldList} →
    {members members' : List (String × Json)} →
    (∀ key ∈ fs.keys, members.lookup key = members'.lookup key) →
    fs.ofMembers reading members = fs.ofMembers reading members'
  | .nil, _, _, _ => rfl
  | .cons key presence schema rest, members, members', h => by
    have hrest : rest.ofMembers reading members = rest.ofMembers reading members' :=
      ofMembers_congr reading fun k hk => h k (List.mem_cons_of_mem key hk)
    rw [ofMembers, ofMembers, h key List.mem_cons_self, hrest]

/-- The fields of a record are read back, also among other members. -/
def ReadsBack (reading : Reading) (fs : FieldList) : Prop :=
  ∀ (vals : fs.Vals) (extra : List (String × Json)),
    (∀ key ∈ fs.keys, extra.lookup key = none) →
      fs.ofMembers reading (fs.toMembers vals ++ extra) = .ok vals

theorem readsBack_cons (hs : schema.isFaithful = true) (hkey : key ∉ rest.keys)
    (hschema : schema.ReadsBack reading) (hrest : rest.ReadsBack reading) :
    (cons key presence schema rest).ReadsBack reading := by
  rintro ⟨v, vals⟩ extra hextra
  have hread := hrest vals extra fun k hk => hextra k (List.mem_cons_of_mem key hk)
  obtain ⟨⟨rfl, hnull⟩, hwritten⟩ | ⟨-, hwritten⟩ := toMembers_cons key presence v vals
  · -- The member is left out, so the reader finds none and takes the default.
    have habsent : (rest.toMembers vals ++ extra).lookup key = none := by
      rw [List.lookup_append, lookup_toMembers_eq_none vals hkey, hextra key List.mem_cons_self]
      rfl
    rw [hwritten, ofMembers, habsent, hread, Schema.eq_default_of_toJson hs hnull]
    rfl
  · -- The member is written in front of the others, which do not have its name.
    have hskip : rest.ofMembers reading
        ((key, schema.toJson v) :: (rest.toMembers vals ++ extra)) = .ok vals := by
      rw [← hread]
      refine ofMembers_congr reading fun k hk => ?_
      rw [List.lookup_cons, beq_false_of_ne (ne_of_mem_of_not_mem hk hkey)]
    rw [hwritten, List.cons_append, ofMembers, hskip, List.lookup_cons_self]
    simp only [hschema v]
    rfl

end FieldList

namespace Setback

theorem both_eq_ok_iff {α β : Type} {x : Except Setback α} {y : Except Setback β} {p : α × β} :
    both x y = .ok p ↔ x = .ok p.1 ∧ y = .ok p.2 := by
  obtain ⟨a, b⟩ := p
  cases x <;> cases y <;> simp [both]

theorem member_eq_ok_iff {α : Type} {members : List (String × Json)} {key : String}
    {read : Json → Except Fault α} {a : α} :
    member members key read = .ok a ↔
      ∃ value, members.lookup key = some value ∧ read value = .ok a := by
  rw [member]
  cases members.lookup key <;> simp

theorem refuseUnknown_eq_ok {known : List String} {members : List (String × Json)}
    (h : ∀ m ∈ members, m.1 ∈ known) : refuseUnknown known members = .ok () := by
  induction members with
  | nil => rfl
  | cons m rest ih =>
    rw [refuseUnknown, if_pos (h m List.mem_cons_self)]
    exact ih fun n hn => h n (List.mem_cons_of_mem m hn)

end Setback

namespace Schema

variable {reading : Reading} {inner item : Schema} {fields : FieldList}

theorem readsBack_natural (expected : String) : (natural expected).ReadsBack reading := by
  intro n
  have hn : n.toNat < UInt64.size := n.toNat_lt_size
  have hrange : (0 : Int) ≤ n.toNat ∧ (n.toNat : Int) < UInt64.size := by omega
  rw [toJson, ofJson, if_pos hrange, Int.toNat_natCast, UInt64.ofNat_toNat]

/-- An absent value and a present one are told apart, since the inner schema never writes `null`. -/
theorem readsBack_nullable (hnull : inner.writesNull = false) (h : inner.ReadsBack reading) :
    (nullable inner).ReadsBack reading
  | none => rfl
  | some v => by
    rw [toJson, ofJson, h v]
    · rfl
    · exact toJson_ne_null hnull v

theorem readsBack_list (h : item.ReadsBack reading) : (list item).ReadsBack reading := by
  intro vs
  refine Fallible.mapM_eq_ok_iff.2 (List.forall₂_map_left_iff.2 ?_)
  exact List.forall₂_same.2 fun v _ => h v

theorem readsBack_dict (h : item.ReadsBack reading) : (dict item).ReadsBack reading := by
  intro d
  have hread : (d.entries.map fun e => (e.1, item.toJson e.2)).mapM
      (fun m => (item.ofJson reading m.2).map fun v => (m.1, v)) = .ok d.entries := by
    refine Fallible.mapM_eq_ok_iff.2 (List.forall₂_map_left_iff.2 ?_)
    refine List.forall₂_same.2 fun e _ => ?_
    rw [h e.2]
    rfl
  rw [toJson, ofJson]
  simp only [hread]
  exact congrArg Except.ok (Dict.ofList_entries d)

theorem readsBack_record (expected : String) (closed : Bool) (h : fields.ReadsBack reading) :
    (record expected closed fields).ReadsBack reading := by
  intro vals
  have hknown : (if closed then Setback.refuseUnknown fields.keys (fields.toMembers vals)
      else .ok ()) = .ok () := by
    cases closed with
    | false => rfl
    | true => exact Setback.refuseUnknown_eq_ok fun _ => FieldList.mem_keys_of_mem_toMembers
  have hread : fields.ofMembers reading (fields.toMembers vals) = .ok vals := by
    have hmore := h vals [] fun _ _ => rfl
    rwa [List.append_nil] at hmore
  rw [toJson, ofJson]
  simp only [hknown, hread, Setback.both]

end Schema

-- A record leads from schemas to lists of fields and each field back to a schema.
mutual

/-- Each faithful schema reads back what it writes. The induction is on the schema, together with
the fields of its records. -/
theorem Schema.readsBack (reading : Reading) : (s : Schema) → s.isFaithful = true →
    s.ReadsBack reading
  | .text _, _ => fun _ => rfl
  | .flag, _ => fun _ => rfl
  | .natural expected, _ => Schema.readsBack_natural expected
  | .any, _ => fun _ => rfl
  | .nullable inner, hs => by
    rw [Schema.isFaithful, Bool.and_eq_true, Bool.not_eq_true'] at hs
    exact Schema.readsBack_nullable hs.2 (inner.readsBack reading hs.1)
  | .list item, hs => Schema.readsBack_list (item.readsBack reading hs)
  | .dict item, hs => Schema.readsBack_dict (item.readsBack reading hs)
  | .record expected closed fields, hs =>
    Schema.readsBack_record expected closed (fields.readsBack reading hs)
  | .openRecord _ _, hs => by cases hs

theorem FieldList.readsBack (reading : Reading) : (fs : FieldList) → fs.isFaithful = true →
    fs.ReadsBack reading
  | .nil, _ => fun _ _ _ => rfl
  | .cons _ _ schema rest, hs => by
    obtain ⟨hschema, hkey, hrest⟩ := FieldList.isFaithful_cons.1 hs
    exact FieldList.readsBack_cons hschema hkey (schema.readsBack reading hschema)
      (rest.readsBack reading hrest)

end

namespace FieldList

variable {fs : FieldList}

theorem filter_toMembers_of_keys (vals : fs.Vals) {p : String × Json → Bool}
    (h : ∀ m, m.1 ∈ fs.keys → p m = true) : (fs.toMembers vals).filter p = fs.toMembers vals :=
  List.filter_eq_self.2 fun m hm => h m (mem_keys_of_mem_toMembers hm)

/-- An open record keeps the members that its fields do not take. -/
theorem filter_toMembers_append (vals : fs.Vals) {extra : List (String × Json)}
    (h : ∀ key ∈ fs.keys, extra.lookup key = none) :
    (fs.toMembers vals ++ extra).filter (fun m => m.1 ∉ fs.keys) = extra := by
  have hfields : (fs.toMembers vals).filter (fun m => m.1 ∉ fs.keys) = [] :=
    List.filter_eq_nil_iff.2 fun m hm => by simp [mem_keys_of_mem_toMembers hm]
  rw [List.filter_append, hfields, List.nil_append]
  refine List.filter_eq_self.2 fun m hm => decide_eq_true fun hkey => ?_
  exact absurd rfl (bne_iff_ne.1 (List.lookup_eq_none_iff.1 (h m.1 hkey) m hm))

end FieldList

namespace Schema

variable {reading : Reading} {expected : String} {fields : FieldList}

/-- An open record keeps exactly the members that are not its fields. -/
theorem ofJson_openRecord_obj {members : List (String × Json)} {vals : fields.Vals}
    {extra : Dict Json} :
    (openRecord expected fields).ofJson reading (.obj members) = .ok (vals, extra) ↔
      fields.ofMembers reading members = .ok vals ∧
        extra = Dict.ofList (members.filter fun m => m.1 ∉ fields.keys) := by
  rw [ofJson]
  cases fields.ofMembers reading members with
  | error setback => simp
  | ok vals' => simp [eq_comm]

/-- Only an object makes an open record. -/
theorem exists_members_of_openRecord {value : Json} {v : (openRecord expected fields).Val}
    (h : (openRecord expected fields).ofJson reading value = .ok v) :
    ∃ members, value = .obj members := by
  cases value with
  | obj members => exact ⟨members, rfl⟩
  | _ => cases h

/-- An open record is read back if what it keeps has other names than its fields. -/
theorem ofJson_openRecord_toJson (hfields : fields.isFaithful = true) {vals : fields.Vals}
    {extra : Dict Json} (h : ∀ key ∈ fields.keys, extra.contains key = false) :
    (openRecord expected fields).ofJson reading ((openRecord expected fields).toJson (vals, extra))
      = .ok (vals, extra) := by
  have hextra : ∀ key ∈ fields.keys, extra.entries.lookup key = none := fun key hkey =>
    Dict.contains_eq_false_iff.1 (h key hkey)
  rw [toJson, ofJson_openRecord_obj, FieldList.filter_toMembers_append vals hextra,
    Dict.ofList_entries]
  exact ⟨fields.readsBack reading hfields vals extra.entries hextra, rfl⟩

theorem contains_of_ofJson_openRecord {value : Json} {vals : fields.Vals} {extra : Dict Json}
    (h : (openRecord expected fields).ofJson reading value = .ok (vals, extra)) {key : String}
    (hkey : key ∈ fields.keys) : extra.contains key = false := by
  obtain ⟨members, rfl⟩ := exists_members_of_openRecord h
  obtain ⟨-, rfl⟩ := ofJson_openRecord_obj.1 h
  refine Bool.eq_false_iff.2 fun hcontains => ?_
  obtain ⟨m, hm, rfl⟩ := List.mem_map.1 (Dict.contains_ofList.1 hcontains)
  exact of_decide_eq_true (List.mem_filter.1 hm).2 hkey

end Schema

/-! ## Which members are written -/

namespace Schema

variable {s : Schema} {reading : Reading}

theorem toJson_default (h : s.writesNull = true) : s.toJson s.default = .null := by
  cases s with
  | any => rfl
  | nullable inner => rfl
  | _ => cases h

theorem ofJson_null_ne_ok (h : s.writesNull = false) (v : s.Val) :
    s.ofJson reading .null ≠ .ok v := by
  cases s with
  | any => cases h
  | nullable inner => cases h
  | _ => rintro ⟨⟩

/-- What is read from `null`, and nothing else, is written as `null` again. -/
theorem toJson_eq_null_iff (hs : s.isFaithful = true) {value : Json} {v : s.Val}
    (h : s.ofJson reading value = .ok v) : s.toJson v = .null ↔ value = .null := by
  cases s with
  | any =>
    cases h
    rfl
  | nullable inner =>
    simp only [isFaithful, Bool.and_eq_true, Bool.not_eq_true'] at hs
    by_cases hvalue : value = .null
    · subst hvalue
      cases h
      exact iff_of_true rfl rfl
    · rw [ofJson] at h
      · obtain ⟨w, -, rfl⟩ := Fallible.map_eq_ok_iff.1 h
        exact iff_of_false (toJson_ne_null hs.2 w) hvalue
      · exact hvalue
  | openRecord expected fields => cases hs
  | _ =>
    refine iff_of_false (toJson_ne_null rfl v) ?_
    rintro rfl
    exact ofJson_null_ne_ok rfl v h

end Schema

namespace FieldList

variable {reading : Reading} {key : String} {presence : Presence} {schema : Schema}
  {rest fs : FieldList}

theorem nodup_keys : {fs : FieldList} → fs.isFaithful = true → fs.keys.Nodup
  | .nil, _ => .nil
  | .cons _ _ _ _, h =>
    have ⟨_, hkey, hrest⟩ := isFaithful_cons.1 h
    List.nodup_cons.2 ⟨hkey, nodup_keys hrest⟩

/-- The names of the fields that are left out when they have nothing to say. -/
def omittable : FieldList → List String
  | .nil => []
  | .cons key presence schema rest =>
    if presence = .optional ∧ schema.writesNull = true then key :: rest.omittable
    else rest.omittable

theorem omittable_subset : {fs : FieldList} → fs.omittable ⊆ fs.keys
  | .nil => List.Subset.refl []
  | .cons key presence schema rest => by
    rw [omittable, keys]
    split
    · exact List.cons_subset_cons key omittable_subset
    · exact List.subset_cons_of_subset key omittable_subset

/-- Whether a member says nothing: it is absent or `null`. -/
def SaysNothing (members : List (String × Json)) (key : String) : Prop :=
  members.lookup key = none ∨ members.lookup key = some .null

/-- A field is read from its member, or stands for its default if it is absent. -/
theorem ofMembers_cons_eq_ok_iff {members : List (String × Json)} {v : schema.Val}
    {vals : rest.Vals} :
    (cons key presence schema rest).ofMembers reading members = .ok (v, vals) ↔
      ((∃ value, members.lookup key = some value ∧ schema.ofJson reading value = .ok v) ∨
        members.lookup key = none ∧ schema.absent? presence = some v) ∧
      rest.ofMembers reading members = .ok vals := by
  rw [ofMembers, Setback.both_eq_ok_iff]
  cases members.lookup key with
  | some value => simp
  | none => cases schema.absent? presence <;> simp

theorem toJson_eq_null_iff_of_ofMembers (hs : schema.isFaithful = true)
    {members : List (String × Json)} {v : schema.Val} {vals : rest.Vals}
    (h : (cons key .optional schema rest).ofMembers reading members = .ok (v, vals)) :
    schema.toJson v = .null ↔ schema.writesNull = true ∧ SaysNothing members key := by
  have hwrites (hnull : schema.toJson v = .null) : schema.writesNull = true :=
    Bool.of_not_eq_false fun hfalse => Schema.toJson_ne_null hfalse v hnull
  rcases (ofMembers_cons_eq_ok_iff.1 h).1 with ⟨value, hlookup, hread⟩ | ⟨hlookup, habsent⟩
  · have hnull := Schema.toJson_eq_null_iff hs hread
    rw [SaysNothing, hlookup]
    simp only [reduceCtorEq, false_or, Option.some.injEq]
    exact ⟨fun h => ⟨hwrites h, hnull.1 h⟩, fun h => hnull.2 h.2⟩
  · cases habsent
    exact ⟨fun h => ⟨hwrites h, .inl hlookup⟩, fun h => Schema.toJson_default h.1⟩

theorem mem_omittable_self (hkey : key ∉ rest.keys) :
    key ∈ (cons key presence schema rest).omittable ↔
      presence = .optional ∧ schema.writesNull = true := by
  rw [omittable]
  split
  · rename_i h
    exact iff_of_true List.mem_cons_self h
  · rename_i h
    exact iff_of_false (fun hmem => hkey (omittable_subset hmem)) h

theorem mem_omittable_of_ne {name : String} (h : name ≠ key) :
    name ∈ (cons key presence schema rest).omittable ↔ name ∈ rest.omittable := by
  rw [omittable]
  split
  · rw [List.mem_cons, or_iff_right h]
  · rfl

/-- A field is left out exactly if it is optional and has nothing to say. -/
theorem lookup_toMembers_self (hkey : key ∉ rest.keys) {v : schema.Val} (vals : rest.Vals) :
    ((cons key presence schema rest).toMembers (v, vals)).lookup key = none ↔
      presence = .optional ∧ schema.toJson v = .null := by
  obtain ⟨h, hwritten⟩ | ⟨h, hwritten⟩ := toMembers_cons key presence v vals
  · rw [hwritten]
    exact iff_of_true (lookup_toMembers_eq_none vals hkey) h
  · rw [hwritten, List.lookup_cons_self]
    exact iff_of_false (Option.some_ne_none _) h

theorem lookup_toMembers_of_ne {name : String} (h : name ≠ key) {v : schema.Val}
    (vals : rest.Vals) : ((cons key presence schema rest).toMembers (v, vals)).lookup name =
      (rest.toMembers vals).lookup name := by
  obtain ⟨-, hwritten⟩ | ⟨-, hwritten⟩ := toMembers_cons key presence v vals
  · rw [hwritten]
  · rw [hwritten, List.lookup_cons, beq_false_of_ne h]

/-- A field is left out exactly if it may be and nothing was said about it. -/
theorem lookup_toMembers_eq_none_iff : {fs : FieldList} → {vals : fs.Vals} →
    {members : List (String × Json)} → fs.isFaithful = true →
    fs.ofMembers reading members = .ok vals → {key : String} → key ∈ fs.keys →
    ((fs.toMembers vals).lookup key = none ↔ key ∈ fs.omittable ∧ SaysNothing members key)
  | .nil, _, _, _, _, _, hkey => by cases hkey
  | .cons name presence schema rest, (v, vals), members, hfs, h, key, hkey => by
    obtain ⟨hs, hname, hrest⟩ := isFaithful_cons.1 hfs
    by_cases heq : key = name
    · subst heq
      rw [lookup_toMembers_self hname, mem_omittable_self hname]
      constructor
      · rintro ⟨rfl, hnull⟩
        obtain ⟨hwrites, hnothing⟩ := (toJson_eq_null_iff_of_ofMembers hs h).1 hnull
        exact ⟨⟨rfl, hwrites⟩, hnothing⟩
      · rintro ⟨⟨rfl, hwrites⟩, hnothing⟩
        exact ⟨rfl, (toJson_eq_null_iff_of_ofMembers hs h).2 ⟨hwrites, hnothing⟩⟩
    · rw [lookup_toMembers_of_ne heq, mem_omittable_of_ne heq]
      exact lookup_toMembers_eq_none_iff hrest (ofMembers_cons_eq_ok_iff.1 h).2
        ((List.mem_cons.1 hkey).resolve_left heq)

end FieldList

end AddonLint
