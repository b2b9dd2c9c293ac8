import AddonLint.Proofs.Documents

/-!
# The keys of metadata documents

Reading metadata splits an object in two: the members with the names of the modelled fields, and
all others, which are kept with their values. Writing joins the two again. No member is lost on the
way and none appears that is not modelled, whatever the names are close to.
-/
namespace AddonLint.AddonMetadata

theorem toVals_ofVals (v : schema.Val) : (ofVals v).toVals = v := by
  have hchannels : Function.LeftInverse Channel.toVals Channel.ofVals := fun _ => rfl
  obtain ⟨⟨id, name, description, operatorName, label, icon, defaultChannel, channels, rest⟩,
    extra⟩ := v
  rw [ofVals, toVals, hchannels.list_map channels]

/-- Metadata is what its fields make of the members, and what is left of them. -/
theorem ofJson_obj_eq_ok_iff {members : List (String × Json)} {m : AddonMetadata} :
    ofJson (.obj members) = .ok m ↔ fields.ofMembers .direct members = .ok m.toVals.1 ∧
      m.extra = Dict.ofList (members.filter fun e => e.1 ∉ modelledKeys) := by
  rw [ofJson, Fallible.map_eq_ok_iff]
  constructor
  · rintro ⟨v, hread, rfl⟩
    rw [toVals_ofVals]
    exact Schema.ofJson_openRecord_obj.1 hread
  · rintro h
    exact ⟨m.toVals, Schema.ofJson_openRecord_obj.2 h, ofVals_toVals m⟩

def written (m : AddonMetadata) : List (String × Json) :=
  fields.toMembers m.toVals.1 ++ m.extra.entries

/-- A modelled field hides an unmodelled key of its name. -/
theorem lookup_written (m : AddonMetadata) (key : String) :
    m.written.lookup key = ((fields.toMembers m.toVals.1).lookup key).or (m.extra.get? key) :=
  List.lookup_append

theorem nodup_keys_written {m : AddonMetadata} (hm : m.KeysApart) :
    (m.written.map Prod.fst).Nodup := by
  have hfields : ((fields.toMembers m.toVals.1).map Prod.fst).Sublist fields.keys :=
    FieldList.map_fst_toMembers_sublist m.toVals.1
  rw [written, List.map_append, List.nodup_append]
  refine ⟨(FieldList.nodup_keys rfl).sublist hfields, Dict.nodup_of_sorted m.extra.sorted, ?_⟩
  rintro key hkey _ hextra rfl
  have hcontains : m.extra.contains key = true := Dict.mem_keys_iff.1 hextra
  rw [keysApart_iff.1 hm key (hfields.subset hkey)] at hcontains
  cases hcontains

variable {members : List (String × Json)} {m : AddonMetadata}

/-- A key is kept apart exactly if it is not the name of a modelled field. -/
theorem get?_extra (hmembers : (members.map Prod.fst).Nodup) (h : ofJson (.obj members) = .ok m)
    (key : String) :
    m.extra.get? key = if key ∈ modelledKeys then none else members.lookup key := by
  rw [(ofJson_obj_eq_ok_iff.1 h).2, Dict.get?_ofList, Dict.lookup_filter_keys]
  exact hmembers.sublist (List.filter_sublist.map Prod.fst)

/-- Metadata that was read keeps every unmodelled member and writes it again; of the modelled
fields it writes all but the two that may be left out, where nothing was said about them. -/
theorem metadata_keys (hmembers : (members.map Prod.fst).Nodup)
    (h : ofJson (.obj members) = .ok m) :
    (∀ key, m.extra.get? key = if key ∈ modelledKeys then none else members.lookup key) ∧
    ∃ members', m.toJson = .obj members' ∧ (members'.map Prod.fst).Nodup ∧
      (∀ key ∉ modelledKeys, members'.lookup key = members.lookup key) ∧
      ∀ key ∈ modelledKeys, members'.lookup key = none ↔
        key ∈ ["indexImage", "addonImageSetVersion"] ∧
          (members.lookup key = none ∨ members.lookup key = some .null) := by
  have hextra := get?_extra hmembers h
  refine ⟨hextra, m.written, rfl, nodup_keys_written (roundTrips.sound h), fun key hkey => ?_,
    fun key hkey => ?_⟩
  · have hnone : (fields.toMembers m.toVals.1).lookup key = none :=
      FieldList.lookup_toMembers_eq_none _ (keys_fields ▸ hkey)
    rw [lookup_written, hnone, hextra, if_neg hkey, Option.none_or]
  · rw [lookup_written, hextra, if_pos hkey, Option.or_none]
    exact FieldList.lookup_toMembers_eq_none_iff rfl (ofJson_obj_eq_ok_iff.1 h).1 hkey

/-- A document with keys that are close to modelled ones, and one modelled key that is `null`. -/
def nearMisses : List (String × Json) :=
  [("id", .str "a"), ("operatorName", .str "b"), ("operator_name", .null),
    ("index_image", .arr [.int 1, .obj [("Id", .float ⟨0x3FF8000000000000⟩)]]),
    ("indexImage", .null), ("addonImageSetVersion", .str "1.0.0")]

theorem metadata_keys_nearMisses :
    (nearMisses.map Prod.fst).Nodup ∧ ∃ m, ofJson (.obj nearMisses) = .ok m ∧
      m.extra.get? "operator_name" = some .null ∧ m.extra.get? "indexImage" = none ∧
      ∃ members, m.toJson = .obj members ∧
        members.lookup "index_image" = nearMisses.lookup "index_image" ∧
        members.lookup "indexImage" = none ∧ members.lookup "addonImageSetVersion" ≠ none ∧
        members.lookup "label" ≠ none := by
  have hkeys : (nearMisses.map Prod.fst).Nodup := by decide
  obtain ⟨m, hm⟩ : ∃ m, ofJson (.obj nearMisses) = .ok m :=
    Fallible.exists_ok_of_isSome rfl
  obtain ⟨hextra, members, hwritten, -, hkept, hfields⟩ := metadata_keys hkeys hm
  refine ⟨hkeys, m, hm, (hextra "operator_name").trans rfl, (hextra "indexImage").trans rfl,
    members, hwritten, hkept "index_image" (by decide), ?_, ?_, ?_⟩
  · exact (hfields "indexImage" (by decide)).2 ⟨by decide, .inr rfl⟩
  · intro hnone
    obtain ⟨-, habsent | hnull⟩ := (hfields "addonImageSetVersion" (by decide)).1 hnone
    · cases habsent
    · cases hnull
  · intro hnone
    exact absurd ((hfields "label" (by decide)).1 hnone).1 (by decide)

end AddonLint.AddonMetadata
