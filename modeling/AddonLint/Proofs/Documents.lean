import AddonLint.Proofs.Schemas
import AddonLint.Proofs.VersionTexts
import AddonLint.Subject
import AddonLint.VersionRequest.Json

/-!
# Documents stand for their values

Whatever the program writes as a JSON value is read back as the same value: version requests, image
sets, artifacts, bundles, metadata and whole subjects. Conversely a value that was read may be
written in another way than it was given, but from then on reading and writing leave it alone. Only
metadata can be confused, by an unmodelled key that has the name of a field, and no document leads
to such metadata.
-/
namespace AddonLint

/-- Writing and reading belong together: each sound value is read back from its document, nothing
else is ever read, and what is written for a value that was read is a normal form. -/
structure RoundTrips {α : Type} (toJson : α → Json) (ofJson : Json → Except Fault α)
    (Sound : α → Prop) : Prop where
  read_back : ∀ {a}, Sound a → ofJson (toJson a) = .ok a
  sound : ∀ {value a}, ofJson value = .ok a → Sound a
  normal : ∀ {value a}, ofJson value = .ok a → (ofJson (toJson a)).map toJson = .ok (toJson a)

section

variable {α : Type} {toJson : α → Json} {ofJson : Json → Except Fault α} {Sound : α → Prop}

/-- What is written for a sound value is a normal form as soon as it is read back. -/
theorem RoundTrips.of_sound (hread : ∀ {a}, Sound a → ofJson (toJson a) = .ok a)
    (hsound : ∀ {value a}, ofJson value = .ok a → Sound a) : RoundTrips toJson ofJson Sound where
  read_back := hread
  sound := hsound
  normal h := by
    rw [hread (hsound h)]
    rfl

theorem RoundTrips.of_forall (hread : ∀ a, ofJson (toJson a) = .ok a) :
    RoundTrips toJson ofJson fun _ => True :=
  .of_sound (fun _ => hread _) fun _ => trivial

end

/-! ## Records -/

/-- A type whose values are the values of a schema. -/
theorem Schema.roundTrips {α : Type} {s : Schema} (hs : s.isFaithful = true) (reading : Reading)
    {ofVals : s.Val → α} {toVals : α → s.Val} (h : Function.LeftInverse ofVals toVals) :
    RoundTrips (fun a => s.toJson (toVals a)) (fun value => (s.ofJson reading value).map ofVals)
      fun _ => True :=
  .of_forall fun a => by
    rw [s.readsBack reading hs (toVals a)]
    exact congrArg Except.ok (h a)

theorem Bundle.leftInverse : Function.LeftInverse ofVals toVals := fun _ => rfl

theorem Channel.leftInverse : Function.LeftInverse ofVals toVals := fun _ => rfl

theorem leftInverse_map {α V : Type} {ofVals : V → α} {toVals : α → V}
    (h : Function.LeftInverse ofVals toVals) (as : Option (List α)) :
    (as.map (List.map toVals)).map (List.map ofVals) = as := by
  rw [Option.map_map, h.list_map.comp_eq_id, Option.map_id_fun, id]

theorem ImageSet.leftInverse : Function.LeftInverse ofVals toVals := by
  have hparameters : Function.LeftInverse AddonParameter.ofVals AddonParameter.toVals := fun _ => rfl
  have hrequirements : Function.LeftInverse AddonRequirement.ofVals AddonRequirement.toVals :=
    fun _ => rfl
  have hoperators : Function.LeftInverse SubOperator.ofVals SubOperator.toVals := fun _ => rfl
  rintro ⟨name, indexImage, relatedImages, parameters, requirements, subOperators⟩
  rw [toVals, ofVals, ImageSet.mk.injEq]
  exact ⟨rfl, rfl, rfl, leftInverse_map hparameters parameters,
    leftInverse_map hrequirements requirements, leftInverse_map hoperators subOperators⟩

/-- An image set is read back from a value and from a copy that was set aside. -/
theorem ImageSet.roundTrips (reading : Reading) :
    RoundTrips toJson (ofJson reading) fun _ => True :=
  schema.roundTrips rfl reading leftInverse

theorem Bundle.roundTrips : RoundTrips toJson ofJson fun _ => True :=
  schema.roundTrips rfl .direct leftInverse

/-! ## Metadata -/

namespace AddonMetadata

/-- The names of the modelled fields. -/
def modelledKeys : List String :=
  ["id", "name", "description", "operatorName", "label", "icon", "defaultChannel", "channels",
    "targetNamespace", "namespaces", "testHarness", "installMode", "indexImage",
    "addonImageSetVersion"]

theorem keys_fields : fields.keys = modelledKeys := rfl

/-- No unmodelled key has the name of a modelled field. -/
def KeysApart (m : AddonMetadata) : Prop := ∀ key ∈ modelledKeys, m.extra.contains key = false

theorem ofVals_toVals (m : AddonMetadata) : ofVals m.toVals = m := by
  rw [toVals, ofVals, Channel.leftInverse.list_map m.channels]

/-- Unmodelled keys are apart from the modelled ones exactly if they hold none of their names. -/
theorem keysApart_iff {m : AddonMetadata} :
    m.KeysApart ↔ ∀ key ∈ fields.keys, m.extra.contains key = false := by
  rw [KeysApart, keys_fields]

theorem roundTrips : RoundTrips toJson ofJson KeysApart := by
  refine .of_sound (fun {m} hm => ?_) fun {value m} h => ?_
  · have hread : schema.ofJson .direct m.toJson = .ok m.toVals :=
      Schema.ofJson_openRecord_toJson rfl (keysApart_iff.1 hm)
    rw [ofJson, hread]
    exact congrArg Except.ok (ofVals_toVals m)
  · obtain ⟨⟨vals, extra⟩, hread, rfl⟩ := Fallible.map_eq_ok_iff.1 h
    exact keysApart_iff.2 fun key hkey => Schema.contains_of_ofJson_openRecord hread hkey

/-- An unmodelled key with the name of a field is lost. -/
example : (ofJson { ofNames "a" "b" with extra := Dict.ofList [("id", .null)] }.toJson).map
    (fun m => m.extra.size) = .ok 0 := rfl

end AddonMetadata

/-! ## Named options and tags -/

theorem Environment.ofJson_toJson (e : Environment) : ofJson e.toJson = .ok e := by
  cases e <;> rfl

namespace VersionRequest

/-- An exact version is well-formed, as any version that was read. -/
def IsWellFormed : VersionRequest → Prop
  | .exact v => v.IsWellFormed
  | _ => True

theorem isWellFormed_of_ofContent {kind : Kind} {content : Json} {r : VersionRequest}
    (h : ofContent kind content = .ok r) : r.IsWellFormed := by
  revert h
  rw [ofContent.eq_def]
  split
  · rintro ⟨⟩
    trivial
  · rintro ⟨⟩
    trivial
  · split
    · rename_i hparse
      rintro ⟨⟩
      exact (SemVer.parse_eq_ok_iff.1 hparse).1
    · rintro ⟨⟩
  · rintro ⟨⟩

theorem isWellFormed_of_ofKind {kind : Kind} {r : VersionRequest} (h : ofKind kind = .ok r) :
    r.IsWellFormed := by
  cases kind <;> cases h <;> trivial

/-- A request is never read with a version that no text stands for. -/
theorem isWellFormed_of_ofJson {value : Json} {r : VersionRequest} (h : ofJson value = .ok r) :
    r.IsWellFormed := by
  revert h
  rw [ofJson.eq_def]
  split
  · split
    · rintro ⟨⟩
    · intro h
      obtain ⟨kind, -, h⟩ := Fallible.bind_eq_ok_iff.1 h
      split at h
      · exact isWellFormed_of_ofContent h
      · exact isWellFormed_of_ofKind h
  · rintro ⟨⟩
  · intro h
    obtain ⟨kind, -, h⟩ := Fallible.bind_eq_ok_iff.1 h
    split at h
    · cases h
    · obtain ⟨r', hcontent, h⟩ := Fallible.bind_eq_ok_iff.1 h
      split at h
      · cases h
        exact isWellFormed_of_ofContent hcontent
      · cases h
  · rintro ⟨⟩

theorem ofJson_tagged (kind : Kind) (content : Json) :
    ofJson (.obj [("kind", .str kind.name), ("version", content)]) = ofContent kind content := by
  cases kind <;> rfl

theorem ofJson_toJson {r : VersionRequest} (h : r.IsWellFormed) : ofJson r.toJson = .ok r := by
  cases r with
  | declared => rfl
  | latest => rfl
  | exact v =>
    have hparse : SemVer.parse v.text = .ok v := SemVer.parse_eq_ok_iff.2 ⟨h, rfl⟩
    rw [toJson, ofJson_tagged, ofContent, hparse]

theorem roundTrips : RoundTrips toJson ofJson IsWellFormed :=
  .of_sound ofJson_toJson isWellFormed_of_ofJson

end VersionRequest

namespace Artifact

/-- The tag is told apart from the fields beside it. -/
theorem ofJson_tagged {fields : FieldList} (hkey : sourceKey ∉ fields.keys) (vals : fields.Vals)
    (source : Source) :
    ofJson (.obj ((sourceKey, .str source.name) :: fields.toMembers vals)) =
      ofContent source (.obj (fields.toMembers vals)) := by
  have hsource : Source.ofJson (.str source.name) = .ok source := by cases source <;> rfl
  have hrest : (fields.toMembers vals).filter (fun m => m.1 ≠ sourceKey) = fields.toMembers vals :=
    FieldList.filter_toMembers_of_keys vals fun m hm =>
      decide_eq_true (ne_of_mem_of_not_mem hm hkey)
  rw [ofJson, List.lookup_cons_self]
  dsimp only
  rw [hsource, List.filter_cons_of_neg (by simp), hrest]
  rfl

theorem ofJson_toJson (a : Artifact) : ofJson a.toJson = .ok a := by
  cases a with
  | imageSet set =>
    have hset := (ImageSet.roundTrips .buffered).read_back (a := set) trivial
    refine (ofJson_tagged (by decide) _ Source.imageSet).trans ?_
    exact congrArg (Except.map Artifact.imageSet) hset
  | staticIndexImage image =>
    have hread := staticSchema.readsBack .buffered rfl (image, ())
    refine (ofJson_tagged (by decide) _ Source.staticIndexImage).trans ?_
    exact congrArg (Except.map fun v => Artifact.staticIndexImage v.1) hread

theorem roundTrips : RoundTrips toJson ofJson fun _ => True := .of_forall ofJson_toJson

end Artifact

/-! ## Subjects -/

namespace Subject

theorem bundlesOfJson_toJson (bundles : List Bundle) :
    bundlesOfJson (.arr (bundles.map Bundle.toJson)) = .ok bundles := by
  have hread := (Schema.list Bundle.schema).readsBack .direct rfl (bundles.map Bundle.toVals)
  have hwrite : (Schema.list Bundle.schema).toJson (bundles.map Bundle.toVals) =
      .arr (bundles.map Bundle.toJson) := by
    rw [Schema.toJson, List.map_map]
    rfl
  rw [bundlesOfJson, ← hwrite, hread]
  exact congrArg Except.ok (Bundle.leftInverse.list_map bundles)

theorem ofMembers_eq_ok_iff {members : List (String × Json)} {s : Subject} :
    ofMembers members = .ok s ↔
      Setback.member members "environment" Environment.ofJson = .ok s.environment ∧
      Setback.member members "addon" AddonMetadata.ofJson = .ok s.addon ∧
      Setback.member members "artifact" Artifact.ofJson = .ok s.artifact ∧
      Setback.member members "bundles" bundlesOfJson = .ok s.bundles := by
  rw [ofMembers, Fallible.bind_eq_ok_iff]
  constructor
  · rintro ⟨⟨environment, addon, artifact, bundles⟩, hread, h⟩
    cases h
    simpa only [Setback.both_eq_ok_iff] using hread
  · intro h
    refine ⟨(s.environment, s.addon, s.artifact, s.bundles), ?_, rfl⟩
    simpa only [Setback.both_eq_ok_iff] using h

theorem ofJson_toJson {s : Subject} (h : s.addon.KeysApart) : ofJson s.toJson = .ok s := by
  have hmembers : ofMembers [("environment", s.environment.toJson), ("addon", s.addon.toJson),
      ("artifact", s.artifact.toJson), ("bundles", .arr (s.bundles.map Bundle.toJson))] = .ok s :=
    ofMembers_eq_ok_iff.2 ⟨Setback.member_eq_ok_iff.2 ⟨_, rfl, s.environment.ofJson_toJson⟩,
      Setback.member_eq_ok_iff.2 ⟨_, rfl, AddonMetadata.roundTrips.read_back h⟩,
      Setback.member_eq_ok_iff.2 ⟨_, rfl, s.artifact.ofJson_toJson⟩,
      Setback.member_eq_ok_iff.2 ⟨_, rfl, bundlesOfJson_toJson s.bundles⟩⟩
  rw [toJson, ofJson, hmembers]

theorem exists_addon_of_ofItems {items : List Json} {s : Subject} (h : ofItems items = .ok s) :
    ∃ value, AddonMetadata.ofJson value = .ok s.addon := by
  simp only [ofItems, Fallible.bind_eq_ok_iff] at h
  obtain ⟨_, -, environment, -, p, -, addon, haddon, _, -, artifact, -, _, -, bundles, -, h⟩ := h
  split at h
  · cases h
    exact ⟨p.1, haddon⟩
  · cases h

theorem exists_addon_of_ofJson {value : Json} {s : Subject} (h : ofJson value = .ok s) :
    ∃ value, AddonMetadata.ofJson value = .ok s.addon := by
  cases value with
  | obj members =>
    rw [ofJson] at h
    split at h
    · rename_i hmembers
      cases h
      obtain ⟨-, haddon, -, -⟩ := ofMembers_eq_ok_iff.1 hmembers
      obtain ⟨value, -, hread⟩ := Setback.member_eq_ok_iff.1 haddon
      exact ⟨value, hread⟩
    · cases h
  | arr items => exact exists_addon_of_ofItems h
  | _ => cases h

theorem roundTrips : RoundTrips toJson ofJson fun s => s.addon.KeysApart :=
  .of_sound ofJson_toJson fun h => by
    obtain ⟨value, hread⟩ := exists_addon_of_ofJson h
    exact AddonMetadata.roundTrips.sound hread

end Subject

/-- Every document of the program stands for its value. -/
theorem documents_roundTrip :
    RoundTrips VersionRequest.toJson VersionRequest.ofJson VersionRequest.IsWellFormed ∧
    (∀ reading, RoundTrips ImageSet.toJson (ImageSet.ofJson reading) fun _ => True) ∧
    RoundTrips Artifact.toJson Artifact.ofJson (fun _ => True) ∧
    RoundTrips Bundle.toJson Bundle.ofJson (fun _ => True) ∧
    RoundTrips AddonMetadata.toJson AddonMetadata.ofJson AddonMetadata.KeysApart ∧
    RoundTrips Subject.toJson Subject.ofJson fun s => s.addon.KeysApart :=
  ⟨VersionRequest.roundTrips, ImageSet.roundTrips, Artifact.roundTrips, Bundle.roundTrips,
    AddonMetadata.roundTrips, Subject.roundTrips⟩

end AddonLint
