import AddonLint.Proofs.IconTexts

/-!
# Images that are cut off

Of an image the decoder reads the chunks up to the end of the picture and then only the length and
the type of the chunk behind it, to see that the picture is over. So an image may be cut off
anywhere behind this type and nowhere before, and its last chunk need not be complete.
-/
namespace AddonLint.Png

/-! ### Whole chunks -/

def IsChunk (raw : List UInt8) : Prop := ∃ chunk : Chunk, chunk.IsFirst raw []

theorem isChunk_iff {raw : List UInt8} :
    IsChunk raw ↔ (readChunk raw).map Prod.snd = some [] := by
  rw [Option.map_eq_some_iff]
  constructor
  · rintro ⟨chunk, hfirst⟩
    exact ⟨(chunk, []), readChunk_eq_some_iff.mpr hfirst, rfl⟩
  · rintro ⟨⟨chunk, rest⟩, hread, rfl⟩
    exact ⟨chunk, readChunk_eq_some_iff.mp hread⟩

theorem Chunk.IsFirst.append {chunk : Chunk} {raw : List UInt8} (h : chunk.IsFirst raw [])
    (rest : List UInt8) : chunk.IsFirst (raw ++ rest) rest := by
  obtain ⟨⟨size, sum, rfl, hsize, hsum, hlength, hintact⟩, htype⟩ := h
  refine ⟨⟨size, sum, ?_, hsize, hsum, hlength, hintact⟩, htype⟩
  simp only [List.append_assoc, List.append_nil]

theorem Chunk.IsFirst.exists_raw {chunk : Chunk} {bytes rest : List UInt8}
    (h : chunk.IsFirst bytes rest) : ∃ raw, bytes = raw ++ rest ∧ chunk.IsFirst raw [] := by
  obtain ⟨⟨size, sum, rfl, hsize, hsum, hlength, hintact⟩, htype⟩ := h
  refine ⟨size ++ (chunk.type ++ (chunk.data ++ sum)), ?_, ?_⟩
  · simp only [List.append_assoc]
  · refine ⟨⟨size, sum, ?_, hsize, hsum, hlength, hintact⟩, htype⟩
    rw [List.append_nil]

namespace IsChunk

variable {raw raw' rest rest' : List UInt8}

/-- Length, type and checksum take twelve bytes already. -/
theorem length_le (h : IsChunk raw) : 12 ≤ raw.length := by
  obtain ⟨chunk, hfirst⟩ := h
  exact hfirst.length_le

theorem nextType_append (h : IsChunk raw) (rest : List UInt8) :
    nextType (raw ++ rest) = nextType raw := by
  obtain ⟨chunk, hfirst⟩ := h
  exact (hfirst.append rest).nextType_eq.trans hfirst.nextType_eq.symm

/-- A chunk says itself where it ends. -/
theorem unique (h : IsChunk raw) (h' : IsChunk raw') (heq : raw ++ rest = raw' ++ rest') :
    raw = raw' ∧ rest = rest' := by
  obtain ⟨chunk, hfirst⟩ := h
  obtain ⟨chunk', hfirst'⟩ := h'
  have hread := readChunk_eq_some_iff.mpr (hfirst.append rest)
  have hread' := readChunk_eq_some_iff.mpr (hfirst'.append rest')
  rw [heq, hread'] at hread
  obtain rfl : rest' = rest := (Prod.mk.inj (Option.some.inj hread)).2
  exact ⟨List.append_cancel_right heq, rfl⟩

end IsChunk

/-- Chunks with types of one kind, up to the first chunk with a type of another kind. -/
theorem flatten_unique {P : ChunkType → Prop} {raws raws' : List (List UInt8)}
    {rest rest' : List UInt8} (h : ∀ raw ∈ raws, IsChunk raw ∧ P (nextType raw))
    (h' : ∀ raw ∈ raws', IsChunk raw ∧ P (nextType raw)) (hrest : ¬P (nextType rest))
    (hrest' : ¬P (nextType rest')) (heq : raws.flatten ++ rest = raws'.flatten ++ rest') :
    raws = raws' ∧ rest = rest' := by
  induction raws generalizing raws' with
  | nil =>
    cases raws' with
    | nil => exact ⟨rfl, heq⟩
    | cons raw' raws' =>
      obtain ⟨hchunk, htype⟩ := h' raw' List.mem_cons_self
      rw [List.flatten_nil, List.nil_append, List.flatten_cons, List.append_assoc] at heq
      rw [heq, hchunk.nextType_append] at hrest
      exact absurd htype hrest
  | cons raw raws ih =>
    obtain ⟨⟨hchunk, htype⟩, hraws⟩ := List.forall_mem_cons.mp h
    rw [List.flatten_cons, List.append_assoc] at heq
    cases raws' with
    | nil =>
      rw [List.flatten_nil, List.nil_append] at heq
      rw [← heq, hchunk.nextType_append] at hrest'
      exact absurd htype hrest'
    | cons raw' raws' =>
      obtain ⟨⟨hchunk', -⟩, hraws'⟩ := List.forall_mem_cons.mp h'
      rw [List.flatten_cons, List.append_assoc] at heq
      obtain ⟨rfl, htail⟩ := hchunk.unique hchunk' heq
      obtain ⟨rfl, hrest⟩ := ih hraws hraws' htail
      exact ⟨rfl, hrest⟩

/-! ### Where the picture of an image ends -/

/-- The start of a chunk that holds no piece of the picture, up to its type at least. -/
structure StartsOther (bytes : List UInt8) : Prop where
  length : 8 ≤ bytes.length
  type : nextType bytes ≠ dataType

theorem startsOther_iff {bytes : List UInt8} :
    StartsOther bytes ↔ (nextType bytes).length = 4 ∧ nextType bytes ≠ dataType := by
  have hlength : (nextType bytes).length = 4 ↔ 8 ≤ bytes.length := by
    rw [nextType, List.length_take, List.length_drop]
    omega
  rw [hlength]
  exact ⟨fun h => ⟨h.length, h.type⟩, fun h => ⟨h.1, h.2⟩⟩

theorem StartsOther.append {bytes : List UInt8} (h : StartsOther bytes) (more : List UInt8) :
    StartsOther (bytes ++ more) := by
  have hlength := h.length
  have htype : nextType (bytes ++ more) = nextType bytes := by
    rw [nextType, nextType, List.drop_append_of_le_length (by omega),
      List.take_append_of_le_length (by rw [List.length_drop]; omega)]
  refine ⟨?_, htype ▸ h.type⟩
  rw [List.length_append]
  omega

/-- The type stands within the first eight bytes of a chunk. -/
theorem StartsOther.take {bytes : List UInt8} (h : StartsOther bytes) {n : Nat} (hn : 8 ≤ n) :
    StartsOther (bytes.take n) := by
  have hlength := h.length
  have htype : nextType (bytes.take n) = nextType bytes := by
    rw [nextType, nextType, List.drop_take, List.take_take, Nat.min_eq_left (by omega)]
  refine ⟨?_, htype ▸ h.type⟩
  rw [List.length_take]
  omega

/-- An image is its signature, the chunks before the picture, the chunks of the picture, and what
is behind them. -/
structure Layout where
  before : List (List UInt8)
  data : List (List UInt8)
  behind : List UInt8

def Layout.front (layout : Layout) : List UInt8 :=
  signature ++ (layout.before.flatten ++ layout.data.flatten)

structure Layout.Of (layout : Layout) (bytes : List UInt8) : Prop where
  bytes_eq : bytes = layout.front ++ layout.behind
  before : ∀ raw ∈ layout.before, IsChunk raw ∧ nextType raw ≠ dataType
  data : ∀ raw ∈ layout.data, IsChunk raw ∧ nextType raw = dataType
  data_ne_nil : layout.data ≠ []
  behind : StartsOther layout.behind

namespace Layout.Of

variable {layout layout' : Layout} {bytes : List UInt8}

theorem nextType_data (h : layout.Of bytes) (rest : List UInt8) :
    nextType (layout.data.flatten ++ rest) = dataType := by
  obtain ⟨raw, raws, hdata⟩ := List.exists_cons_of_ne_nil h.data_ne_nil
  obtain ⟨hchunk, htype⟩ := h.data raw (hdata ▸ List.mem_cons_self)
  rw [hdata, List.flatten_cons, List.append_assoc, hchunk.nextType_append, htype]

/-- An image can be cut into its parts in one way only, as far as the end of the picture. -/
theorem front_unique (h : layout.Of bytes) (h' : layout'.Of bytes) :
    layout.front = layout'.front := by
  have heq := h.bytes_eq.symm.trans h'.bytes_eq
  simp only [front, List.append_assoc] at heq
  have hchunks := List.append_cancel_left heq
  obtain ⟨hbefore, hrest⟩ := flatten_unique (P := (· ≠ dataType)) h.before h'.before
    (not_not_intro (h.nextType_data _)) (not_not_intro (h'.nextType_data _)) hchunks
  obtain ⟨hdata, -⟩ := flatten_unique (P := (· = dataType)) h.data h'.data h.behind.type
    h'.behind.type hrest
  rw [front, front, hbefore, hdata]

end Layout.Of

/-- The chunks before the picture lead to any other picture as well. -/
theorem LeadsTo.exists_before {info : Info} {bytes picture : List UInt8} {header : Header}
    (h : LeadsTo info bytes header picture) :
    ∃ before : List (List UInt8), bytes = before.flatten ++ picture ∧
      (∀ raw ∈ before, IsChunk raw ∧ nextType raw ≠ dataType) ∧ nextType picture = dataType ∧
      ∀ other, nextType other = dataType → LeadsTo info (before.flatten ++ other) header other := by
  induction h with
  | picture hheader hroom htype =>
    exact ⟨[], rfl, List.forall_mem_nil _, htype, fun _ => .picture hheader hroom⟩
  | @chunk info next chunk bytes rest picture header hfirst hheader hbefore htake hintact hend _
      ih =>
    obtain ⟨before, hrest, hraws, hpicture, hother⟩ := ih
    obtain ⟨raw, hbytes, hraw⟩ := hfirst.exists_raw
    have htype : nextType raw ≠ dataType := by
      rw [hraw.nextType_eq]
      by_cases hnone : info.header = none
      · rw [hheader hnone]
        decide
      · exact hbefore hnone
    refine ⟨raw :: before, ?_, List.forall_mem_cons.mpr ⟨⟨⟨chunk, hraw⟩, htype⟩, hraws⟩,
      hpicture, fun other hdata => ?_⟩
    · rw [hbytes, hrest, List.flatten_cons, List.append_assoc]
    · rw [List.flatten_cons, List.append_assoc]
      exact .chunk (hraw.append _) hheader hbefore htake hintact hend (hother other hdata)

/-- The stream of the picture is the same with any other chunk behind it. -/
theorem HoldsStream.exists_behind {bytes stream : List UInt8} (h : HoldsStream bytes stream) :
    ∃ (data : List (List UInt8)) (behind : List UInt8), bytes = data.flatten ++ behind ∧
      (∀ raw ∈ data, IsChunk raw ∧ nextType raw = dataType) ∧ StartsOther behind ∧
      ∀ other, StartsOther other → HoldsStream (data.flatten ++ other) stream := by
  induction h with
  | @other bytes hlength htype =>
    refine ⟨[], bytes, rfl, List.forall_mem_nil _, startsOther_iff.mpr ⟨hlength, htype⟩,
      fun other hother => ?_⟩
    obtain ⟨hlength, htype⟩ := startsOther_iff.mp hother
    exact .other hlength htype
  | @data bytes rest stream chunk hfirst htype hintact _ ih =>
    obtain ⟨data, behind, hrest, hraws, hbehind, hother⟩ := ih
    obtain ⟨raw, hbytes, hraw⟩ := hfirst.exists_raw
    have hdata : nextType raw = dataType := hraw.nextType_eq.trans htype
    refine ⟨raw :: data, behind, ?_, List.forall_mem_cons.mpr ⟨⟨⟨chunk, hraw⟩, hdata⟩, hraws⟩,
      hbehind, fun other h => ?_⟩
    · rw [hbytes, hrest, List.flatten_cons, List.append_assoc]
    · rw [List.flatten_cons, List.append_assoc]
      exact .data (hraw.append _) htype hintact (hother other h)

/-- An image stays one whatever other chunk is put behind its picture, and of this only the
start. -/
theorem exists_layout {bytes : List UInt8} (h : isImage bytes = true) :
    ∃ layout : Layout, layout.Of bytes ∧
      ∀ other, StartsOther other → isImage (layout.front ++ other) = true := by
  obtain ⟨header, ⟨chunks, picture, rfl, hleads, stream, pixels, hstream, hpixels⟩, hsize⟩ :=
    isImage_iff.mp h
  obtain ⟨before, rfl, hbefore, hpicture, hlead⟩ := hleads.exists_before
  obtain ⟨data, behind, rfl, hdata, hbehind, hhold⟩ := hstream.exists_behind
  have hne : data ≠ [] := by
    rintro rfl
    exact hbehind.type hpicture
  have hlayout : (Layout.mk before data behind).Of
      (signature ++ (before.flatten ++ (data.flatten ++ behind))) := by
    refine ⟨?_, hbefore, hdata, hne, hbehind⟩
    simp only [Layout.front, List.append_assoc]
  refine ⟨_, hlayout, fun other hother => ?_⟩
  rw [isImage_iff]
  refine ⟨header, ⟨_, data.flatten ++ other, ?_, hlead _ (hlayout.nextType_data other), stream,
    pixels, hhold other hother, hpixels⟩, hsize⟩
  simp only [Layout.front, List.append_assoc]

/-- An image may be cut off behind the type of the chunk that follows its picture, and nowhere
before. -/
theorem isImage_take_iff {bytes : List UInt8} (h : isImage bytes = true) :
    ∃ layout : Layout, layout.Of bytes ∧
      ∀ n, isImage (bytes.take n) = true ↔ layout.front.length + 8 ≤ n := by
  obtain ⟨layout, hlayout, hother⟩ := exists_layout h
  refine ⟨layout, hlayout, fun n => ⟨fun hcut => ?_, fun hn => ?_⟩⟩
  · obtain ⟨cut, hcut, -⟩ := exists_layout hcut
    -- What was cut off goes behind the picture again.
    have hwhole : (Layout.mk cut.before cut.data (cut.behind ++ bytes.drop n)).Of bytes := by
      refine ⟨?_, hcut.before, hcut.data, hcut.data_ne_nil, hcut.behind.append _⟩
      have hfront : (Layout.mk cut.before cut.data (cut.behind ++ bytes.drop n)).front =
          cut.front := rfl
      rw [hfront, ← List.append_assoc, ← hcut.bytes_eq, List.take_append_drop]
    have hfront := hlayout.front_unique hwhole
    change layout.front = cut.front at hfront
    have hlength : (bytes.take n).length = cut.front.length + cut.behind.length := by
      rw [hcut.bytes_eq, List.length_append]
    rw [List.length_take] at hlength
    have hbehind := hcut.behind.length
    rw [hfront]
    omega
  · rw [hlayout.bytes_eq, List.take_append, List.take_of_length_le (by omega)]
    exact hother _ (hlayout.behind.take (by omega))

end AddonLint.Png

namespace AddonLint.Rules

/-- The text of an icon with these bytes, without line breaks. -/
def iconText (bytes : List UInt8) : String := String.ofList (Base64.encode bytes)

theorem encodes_iconText (bytes : List UInt8) : Encodes (iconText bytes) bytes := by
  rw [Encodes, iconText, String.toList_ofList, List.filter_eq_self]
  intro c hc
  have hdigit : ∀ n < 64, (Base64.digit n ≠ '\n' && Base64.digit n ≠ '\r' : Bool) = true := by
    decide
  rcases Base64.exists_digit_of_mem hc with rfl | ⟨n, hn, rfl⟩
  · decide
  · exact hdigit n hn

theorem encodesImage_iconText_iff {bytes : List UInt8} :
    EncodesImage (iconText bytes) ↔ Png.isImage bytes = true := by
  constructor
  · rintro ⟨others, hothers, himage⟩
    exact hothers.unique (encodes_iconText bytes) ▸ himage
  · intro himage
    exact ⟨bytes, encodes_iconText bytes, himage⟩

theorem iconText_eq_empty_iff {bytes : List UInt8} : iconText bytes = "" ↔ bytes = [] := by
  constructor
  · intro hempty
    have hnil : Encodes (iconText bytes) [] := by rw [hempty]; rfl
    exact (encodes_iconText bytes).unique hnil
  · rintro rfl
    rfl

/-- Bytes that are no image have a text, which is empty only if there are no bytes. -/
theorem iconFault_iconText {bytes : List UInt8} (h : Png.isImage bytes = false) :
    (if bytes = [] then IconFault.missing else .noImage).Applies (iconText bytes) := by
  split_ifs with hempty
  · exact iconText_eq_empty_iff.mpr hempty
  · exact ⟨mt iconText_eq_empty_iff.mp hempty, bytes, encodes_iconText bytes, h⟩

/-- An icon that passes may be cut off anywhere behind the type of the chunk that follows its
picture and still passes, and cut off before it fails. So only an image that ends with this type
cannot be cut off at all, and of an image that ends with a whole chunk the last four bytes may be
missing. -/
theorem icon_cut_off (subject : Subject) {s : String} {bytes : List UInt8}
    (hbytes : Encodes s bytes) (hpass : icon.runner (withIcon subject s) = .verdict .pass) :
    ∃ layout : Png.Layout, layout.Of bytes ∧
      (∀ n, layout.front.length + 8 ≤ n →
        icon.runner (withIcon subject (iconText (bytes.take n))) = .verdict .pass) ∧
      (∀ n, n < layout.front.length + 8 →
        icon.runner (withIcon subject (iconText (bytes.take n))) =
          .verdict (.fail ((if n = 0 then IconFault.missing else .noImage).words ++
            subject.addon.id))) ∧
      ((∀ n < bytes.length,
          icon.runner (withIcon subject (iconText (bytes.take n))) ≠ .verdict .pass) ↔
        layout.behind.length = 8) ∧
      ∀ rest raw, layout.behind = rest ++ raw → Png.IsChunk raw → ∀ n, bytes.length ≤ n + 4 →
        icon.runner (withIcon subject (iconText (bytes.take n))) = .verdict .pass := by
  obtain ⟨others, hothers, himage⟩ := runner_icon_eq_pass_iff.mp hpass
  rw [hothers.unique hbytes] at himage
  obtain ⟨layout, hlayout, htake⟩ := Png.isImage_take_iff himage
  have hpasses (n : Nat) : icon.runner (withIcon subject (iconText (bytes.take n))) =
      .verdict .pass ↔ layout.front.length + 8 ≤ n := by
    rw [runner_icon_eq_pass_iff, encodesImage_iconText_iff, htake]
  have hlength : bytes.length = layout.front.length + layout.behind.length := by
    rw [hlayout.bytes_eq, List.length_append]
  have hbehind := hlayout.behind.length
  refine ⟨layout, hlayout, fun n hn => (hpasses n).mpr hn, ?_, ?_, ?_⟩
  · intro n hn
    have hcut : Png.isImage (bytes.take n) = false :=
      Bool.eq_false_iff.mpr fun h => absurd ((htake n).mp h) (Nat.not_le_of_lt hn)
    have hempty : bytes.take n = [] ↔ n = 0 := by
      rw [← List.length_eq_zero_iff, List.length_take]
      omega
    have hfault := iconFault_iconText hcut
    simp only [hempty] at hfault
    exact runner_icon_of_fault subject hfault
  · simp only [ne_eq, hpasses]
    constructor
    · intro h
      by_contra hne
      exact h (layout.front.length + 8) (by omega) (Nat.le_refl _)
    · intro heq n hn
      omega
  · intro rest raw hraw hchunk n hn
    have hwhole := hchunk.length_le
    rw [hraw, List.length_append] at hlength
    exact (hpasses n).mpr (by omega)

/-- An image of one pixel: one chunk before the picture, one for it and the end chunk. -/
def onePixelLayout : Png.Layout where
  before := [[0, 0, 0, 13, 73, 72, 68, 82, 0, 0, 0, 1, 0, 0, 0, 1, 8, 6, 0, 0, 0, 31, 21, 196, 137]]
  data := [[0, 0, 0, 13, 73, 68, 65, 84, 120, 156, 99, 96, 96, 96, 248, 15, 0, 1, 4, 1, 0, 95, 229,
    195, 75]]
  behind := [0, 0, 0, 0, 73, 69, 78, 68, 174, 66, 96, 130]

def onePixel : List UInt8 := onePixelLayout.front ++ onePixelLayout.behind

theorem isImage_onePixel : Png.isImage onePixel = true := by decide +kernel

/-- A subject with nothing but names. -/
def namesOnly : Subject :=
  .ofNames "reference-addon" "reference-addon" "reference-addon-index:v1.0.0"

/-- The image of one pixel may be cut off behind the type of its end chunk and nowhere before. -/
theorem icon_cut_off_onePixel :
    icon.runner (withIcon namesOnly (iconText onePixel)) = .verdict .pass ∧
      ∀ n, icon.runner (withIcon namesOnly (iconText (onePixel.take n))) = .verdict .pass ↔
        66 ≤ n := by
  have hpass := runner_icon_of_image namesOnly (encodesImage_iconText_iff.mpr isImage_onePixel)
  obtain ⟨layout, hlayout, hpasses, hfails, -⟩ :=
    icon_cut_off namesOnly (encodes_iconText onePixel) hpass
  have hknown : onePixelLayout.Of onePixel := by
    refine ⟨rfl, ?_, ?_, List.cons_ne_nil _ _, by decide, by decide⟩
    · intro raw hraw
      obtain rfl := List.mem_singleton.mp hraw
      exact ⟨Png.isChunk_iff.mpr (by decide +kernel), by decide⟩
    · intro raw hraw
      obtain rfl := List.mem_singleton.mp hraw
      exact ⟨Png.isChunk_iff.mpr (by decide +kernel), by decide⟩
  have hlength : layout.front.length = 58 :=
    congrArg List.length (hlayout.front_unique hknown)
  rw [hlength] at hpasses hfails
  refine ⟨hpass, fun n => ⟨fun h => ?_, hpasses n⟩⟩
  by_contra hn
  have hfail := hfails n (Nat.lt_of_not_le hn)
  cases congrArg Verdict.passed (RunnerEnd.verdict.inj (hfail.symm.trans h))

/-- The image ends with its whole end chunk, and without its last byte it passes as well. -/
theorem onePixel_cut_off :
    icon.runner (withIcon namesOnly (iconText onePixel)) = .verdict .pass ∧
      onePixel = onePixelLayout.front ++ onePixelLayout.behind ∧
      Png.Chunk.IsFirst ⟨Png.endType, [], true⟩ onePixelLayout.behind [] ∧
      69 < onePixel.length ∧
      icon.runner (withIcon namesOnly (iconText (onePixel.take 69))) = .verdict .pass := by
  have hpass := runner_icon_of_image namesOnly (encodesImage_iconText_iff.mpr isImage_onePixel)
  have hcut : Png.isImage (onePixel.take 69) = true := by decide +kernel
  refine ⟨hpass, rfl, ?_, by decide,
    runner_icon_of_image namesOnly (encodesImage_iconText_iff.mpr hcut)⟩
  refine ⟨⟨[0, 0, 0, 0], [174, 66, 96, 130], by decide, rfl, rfl, by decide, ?_⟩, by decide⟩
  decide +kernel

end AddonLint.Rules
