import AddonLint.Icon.Png
import Mathlib.Tactic.SplitIfs

/-!
# What counts as a picture

The decoder goes through the chunks with a bound on the number of steps. Here the same images
are described without a bound: the chunks that lead to the picture, the data chunks that make
up its compressed stream, and the rows in it. A chunk takes at least twelve bytes, so the
bound is never met. The size of the picture is a condition of its own, next to the others.
-/
namespace AddonLint.Png

/-! ### Chunks -/

/-- The bytes are the chunk and then the rest. A chunk stands there as its length, its type,
its data and its checksum. -/
structure Chunk.IsFirst (chunk : Chunk) (bytes rest : List UInt8) : Prop where
  layout : ∃ size sum, bytes = size ++ (chunk.type ++ (chunk.data ++ (sum ++ rest))) ∧
    size.length = 4 ∧ sum.length = 4 ∧ bigEndian size = chunk.data.length ∧
      chunk.intact = decide (bigEndian sum = (checksum (chunk.type ++ chunk.data)).toNat)
  type_length : chunk.type.length = 4

theorem readChunk_eq_some_iff {bytes rest : List UInt8} {chunk : Chunk} :
    readChunk bytes = some (chunk, rest) ↔ chunk.IsFirst bytes rest := by
  constructor
  · intro h
    obtain ⟨⟨hdata, hsum⟩, heq⟩ := Option.ite_none_right_eq_some.mp h
    rw [Option.some.injEq, Prod.mk.injEq] at heq
    obtain ⟨rfl, rfl⟩ := heq
    simp only [List.length_take, List.length_drop] at hdata hsum
    refine ⟨⟨bytes.take 4, _, ?_, ?_, ?_, ?_, rfl⟩, ?_⟩
    · rw [List.take_append_drop, ← List.drop_drop, List.take_append_drop]
      rw [← List.drop_drop (i := 4) (j := 4), List.take_append_drop, List.take_append_drop]
    all_goals
      simp only [List.length_take, List.length_drop]
      omega
  · rintro ⟨⟨size, sum, rfl, hsize, hsum, hlength, hintact⟩, htype⟩
    have hdata : (size ++ (chunk.type ++ (chunk.data ++ (sum ++ rest)))).drop 8 =
        chunk.data ++ (sum ++ rest) := by
      rw [← List.append_assoc, List.drop_left']
      rw [List.length_append, hsize, htype]
    have hrest : (size ++ (chunk.type ++ (chunk.data ++ (sum ++ rest)))).drop
        (8 + bigEndian size) = sum ++ rest := by
      rw [← List.drop_drop, hdata, List.drop_left' hlength.symm]
    simp only [readChunk, List.take_left' hsize, List.drop_left' hsize, List.take_left' htype,
      hdata, hrest, List.take_left' hlength.symm, List.take_left' hsum, List.drop_left' hsum]
    rw [if_pos ⟨hlength.symm, hsum⟩, ← hintact]

/-- The type of the chunk at the front. -/
def nextType (bytes : List UInt8) : ChunkType := (bytes.drop 4).take 4

namespace Chunk.IsFirst

variable {chunk : Chunk} {bytes rest : List UInt8}

theorem nextType_eq (h : chunk.IsFirst bytes rest) : nextType bytes = chunk.type := by
  obtain ⟨⟨size, sum, rfl, hsize, -⟩, htype⟩ := h
  rw [nextType, List.drop_left' hsize, List.take_left' htype]

theorem length_le (h : chunk.IsFirst bytes rest) : rest.length + 12 ≤ bytes.length := by
  obtain ⟨⟨size, sum, rfl, hsize, hsum, -⟩, htype⟩ := h
  simp only [List.length_append]
  omega

end Chunk.IsFirst

/-! ### The compressed stream -/

/-- The data chunks at the front hold the stream, up to the type of another chunk. -/
inductive HoldsStream : List UInt8 → List UInt8 → Prop
  | other {bytes : List UInt8} (hlength : (nextType bytes).length = 4)
      (htype : nextType bytes ≠ dataType) : HoldsStream bytes []
  | data {bytes rest stream : List UInt8} {chunk : Chunk} (hfirst : chunk.IsFirst bytes rest)
      (htype : chunk.type = dataType) (hintact : chunk.intact)
      (hrest : HoldsStream rest stream) : HoldsStream bytes (chunk.data ++ stream)

theorem nextType_length_le (bytes : List UInt8) : (nextType bytes).length ≤ 4 := by
  rw [nextType, List.length_take]
  exact Nat.min_le_left ..

namespace HoldsStream

variable {bytes stream : List UInt8}

theorem nextType_length_eq (h : HoldsStream bytes stream) : (nextType bytes).length = 4 := by
  cases h with
  | other hlength _ => exact hlength
  | data hfirst _ _ _ => exact hfirst.nextType_eq ▸ hfirst.type_length

/-- Where another chunk starts, the stream is over. -/
theorem eq_nil_of_ne (h : HoldsStream bytes stream) (hne : nextType bytes ≠ dataType) :
    stream = [] := by
  cases h with
  | other _ _ => rfl
  | data hfirst htype _ _ => exact absurd (hfirst.nextType_eq.trans htype) hne

/-- Where a data chunk starts, the stream starts with its data. -/
theorem exists_data (h : HoldsStream bytes stream) (heq : nextType bytes = dataType) :
    ∃ chunk rest tail, readChunk bytes = some (chunk, rest) ∧ chunk.intact ∧
      HoldsStream rest tail ∧ stream = chunk.data ++ tail := by
  cases h with
  | other _ htype => exact absurd heq htype
  | data hfirst _ hintact hrest =>
    exact ⟨_, _, _, readChunk_eq_some_iff.mpr hfirst, hintact, hrest, rfl⟩

end HoldsStream

/-- One step into the stream: an intact data chunk adds its data. -/
theorem joinData_succ_iff {fuel : Nat} {joined bytes data : List UInt8}
    (htype : nextType bytes = dataType) :
    joinData (fuel + 1) joined bytes = some data ↔
      ∃ chunk rest, readChunk bytes = some (chunk, rest) ∧ chunk.intact ∧
        joinData fuel (joined ++ chunk.data) rest = some data := by
  rw [nextType] at htype
  rw [joinData, htype, if_neg (by decide), if_neg (not_not_intro rfl)]
  constructor
  · intro h
    split at h
    next chunk rest hread =>
      obtain ⟨hintact, h⟩ := Option.ite_none_right_eq_some.mp h
      exact ⟨chunk, rest, hread, hintact, h⟩
    next => cases h
  · rintro ⟨chunk, rest, hread, hintact, h⟩
    simp only [hread, hintact, if_true, h]

/-- The data chunks are joined up to the first other chunk, without gaps. -/
theorem joinData_eq_some_iff {fuel : Nat} {joined bytes data : List UInt8}
    (hfuel : bytes.length < fuel) :
    joinData fuel joined bytes = some data ↔
      ∃ stream, HoldsStream bytes stream ∧ joined ++ stream = data := by
  induction fuel generalizing joined bytes with
  | zero => exact absurd hfuel (Nat.not_lt_zero _)
  | succ fuel ih =>
    by_cases htype : nextType bytes = dataType
    · rw [joinData_succ_iff htype]
      constructor
      · rintro ⟨chunk, rest, hread, hintact, h⟩
        have hfirst := readChunk_eq_some_iff.mp hread
        have hlength := hfirst.length_le
        obtain ⟨stream, hstream, rfl⟩ := (ih (by omega)).mp h
        have hdata := hfirst.nextType_eq.symm.trans htype
        exact ⟨_, .data hfirst hdata hintact hstream, (List.append_assoc ..).symm⟩
      · rintro ⟨stream, hstream, rfl⟩
        obtain ⟨chunk, rest, tail, hread, hintact, htail, rfl⟩ := hstream.exists_data htype
        have hlength := (readChunk_eq_some_iff.mp hread).length_le
        exact ⟨chunk, rest, hread, hintact,
          (ih (by omega)).mpr ⟨tail, htail, List.append_assoc ..⟩⟩
    · rw [joinData]
      change (if (nextType bytes).length < 4 then none else if nextType bytes ≠ dataType then
        some joined else _) = some data ↔ _
      rw [if_pos htype]
      split_ifs with hlength
      · refine iff_of_false nofun ?_
        rintro ⟨stream, hstream, -⟩
        exact absurd hstream.nextType_length_eq (Nat.ne_of_lt hlength)
      · rw [Option.some.injEq]
        constructor
        · rintro rfl
          have hfour := Nat.le_antisymm (nextType_length_le bytes) (Nat.le_of_not_lt hlength)
          exact ⟨[], .other hfour htype, List.append_nil _⟩
        · rintro ⟨stream, hstream, rfl⟩
          rw [hstream.eq_nil_of_ne htype, List.append_nil]

/-- The picture that starts here, whatever its size. -/
def HoldsPicture (header : Header) (bytes : List UInt8) : Prop :=
  ∃ stream pixels, HoldsStream bytes stream ∧ Inflate.zlib stream = some pixels ∧
    holdsRows pixels header.rowGroups 0 = true

theorem isPicture_iff {header : Header} {bytes : List UInt8} :
    isPicture header bytes = true ↔
      header.frameBytes ≤ Header.maxFrameBytes ∧ HoldsPicture header bytes := by
  rw [isPicture]
  split_ifs with hsize
  · exact iff_of_false not_false fun h => absurd h.1 (Nat.not_le_of_lt hsize)
  · rw [and_iff_right (Nat.le_of_not_lt hsize)]
    have hjoin {stream : List UInt8} : joinData (bytes.length + 1) [] bytes = some stream ↔
        ∃ found, HoldsStream bytes found ∧ [] ++ found = stream :=
      joinData_eq_some_iff (Nat.lt_succ_self bytes.length)
    constructor
    · intro h
      split at h
      next pixels hpixels =>
        obtain ⟨stream, hdata, hzlib⟩ := Option.bind_eq_some_iff.mp hpixels
        obtain ⟨_, hstream, rfl⟩ := hjoin.mp hdata
        exact ⟨_, pixels, hstream, hzlib, h⟩
      next => cases h
    · rintro ⟨stream, pixels, hstream, hzlib, hrows⟩
      have hdata := hjoin.mpr ⟨stream, hstream, List.nil_append _⟩
      rw [Option.bind_eq_some_iff.mpr ⟨stream, hdata, hzlib⟩]
      exact hrows

/-! ### The chunks before the picture -/

/-- From what is known, the chunks at the front lead to the picture with a header, and leave room
for a row of it. -/
inductive LeadsTo : Info → List UInt8 → Header → List UInt8 → Prop
  | picture {info : Info} {header : Header} {bytes : List UInt8}
      (hheader : info.header = some header) (hroom : info.hasRoom header = true)
      (htype : nextType bytes = dataType) : LeadsTo info bytes header bytes
  | chunk {info next : Info} {chunk : Chunk} {bytes rest picture : List UInt8} {header : Header}
      (hfirst : chunk.IsFirst bytes rest)
      (hheader : info.header = none → chunk.type = headerType)
      (hbefore : info.header ≠ none → chunk.type ≠ dataType)
      (htake : info.take chunk = some next) (hintact : isCritical chunk.type → chunk.intact)
      (hend : chunk.type ≠ endType) (hrest : LeadsTo next rest header picture) :
      LeadsTo info bytes header picture

namespace LeadsTo

variable {info : Info} {bytes picture : List UInt8} {header known : Header}

/-- A data chunk is the start of the picture as soon as the header is known. -/
theorem eq_of_data (h : LeadsTo info bytes header picture) (hknown : info.header = some known)
    (htype : nextType bytes = dataType) :
    known = header ∧ info.hasRoom known = true ∧ bytes = picture := by
  cases h with
  | picture hheader hroom _ =>
    obtain rfl := Option.some.inj (hknown.symm.trans hheader)
    exact ⟨rfl, hroom, rfl⟩
  | chunk hfirst _ hbefore _ _ _ _ =>
    have hne := hbefore (hknown ▸ Option.some_ne_none known)
    exact absurd (hfirst.nextType_eq.symm.trans htype) hne

/-- Any other chunk is taken in. -/
theorem exists_chunk (h : LeadsTo info bytes header picture)
    (hother : info.header = none ∨ nextType bytes ≠ dataType) :
    ∃ chunk next rest, readChunk bytes = some (chunk, rest) ∧ info.take chunk = some next ∧
      (info.header = none → chunk.type = headerType) ∧
      (isCritical chunk.type → chunk.intact) ∧ chunk.type ≠ endType ∧
      LeadsTo next rest header picture := by
  cases h with
  | picture hheader _ htype =>
    rw [hheader] at hother
    exact absurd htype (hother.resolve_left (Option.some_ne_none header))
  | chunk hfirst hheader _ htake hintact hend hrest =>
    exact ⟨_, _, _, readChunk_eq_some_iff.mpr hfirst, htake, hheader, hintact, hend, hrest⟩

end LeadsTo

/-- One step before the picture: the chunk is read and taken in. -/
theorem isImageFrom_succ_iff {fuel : Nat} {info : Info} {bytes : List UInt8}
    (hother : info.header = none ∨ nextType bytes ≠ dataType) :
    isImageFrom (fuel + 1) info bytes = true ↔
      ∃ chunk next rest, readChunk bytes = some (chunk, rest) ∧ info.take chunk = some next ∧
        (info.header = none → chunk.type = headerType) ∧
        (isCritical chunk.type → chunk.intact) ∧ chunk.type ≠ endType ∧
        isImageFrom fuel next rest = true := by
  have hnext : (bytes.drop 4).take 4 = nextType bytes := rfl
  rw [isImageFrom, hnext]
  split
  next header hheader htype =>
    rw [hheader] at hother
    exact absurd (of_decide_eq_true htype) (hother.resolve_left (Option.some_ne_none header))
  next =>
    constructor
    · intro h
      split_ifs at h with hfirst
      split at h
      next => cases h
      next chunk rest hread =>
        split at h
        next => cases h
        next next htake =>
          split_ifs at h with hstop
          rw [(readChunk_eq_some_iff.mp hread).nextType_eq] at hfirst hstop
          obtain ⟨hbroken, hend⟩ := not_or.mp hstop
          have hheader (hnone : info.header = none) : chunk.type = headerType :=
            Decidable.not_not.mp (not_and.mp hfirst hnone)
          have hintact (hcritical : isCritical chunk.type) : chunk.intact := by
            simpa [hcritical] using hbroken
          exact ⟨chunk, next, rest, hread, htake, hheader, hintact, hend, h⟩
    · rintro ⟨chunk, next, rest, hread, htake, hheader, hintact, hend, hrest⟩
      rw [(readChunk_eq_some_iff.mp hread).nextType_eq, if_neg fun h => h.2 (hheader h.1)]
      simp only [hread, htake]
      rw [if_neg ?_]
      · exact hrest
      · rintro (⟨hcritical, hbroken⟩ | h)
        · simp [hintact hcritical] at hbroken
        · exact hend h

/-- The last step: the picture is there. -/
theorem isImageFrom_of_data {fuel : Nat} {info : Info} {bytes : List UInt8} {header : Header}
    (hheader : info.header = some header) (htype : nextType bytes = dataType) :
    isImageFrom (fuel + 1) info bytes = (info.hasRoom header && isPicture header bytes) := by
  rw [nextType] at htype
  simp only [isImageFrom, hheader, htype, decide_true]

/-- The fuel is never used up: every chunk takes twelve bytes. -/
theorem isImageFrom_iff {fuel : Nat} {info : Info} {bytes : List UInt8}
    (hfuel : bytes.length ≤ fuel) :
    isImageFrom fuel info bytes = true ↔
      ∃ header picture, LeadsTo info bytes header picture ∧ isPicture header picture = true := by
  induction fuel generalizing info bytes with
  | zero =>
    obtain rfl := List.length_eq_zero_iff.mp (Nat.le_zero.mp hfuel)
    refine iff_of_false Bool.false_ne_true ?_
    rintro ⟨header, picture, hleads, -⟩
    obtain ⟨chunk, next, rest, hread, -⟩ := hleads.exists_chunk (.inr (by decide))
    exact absurd (readChunk_eq_some_iff.mp hread).length_le (Nat.not_le_of_lt (Nat.succ_pos _))
  | succ fuel ih =>
    by_cases hother : info.header = none ∨ nextType bytes ≠ dataType
    · rw [isImageFrom_succ_iff hother]
      constructor
      · rintro ⟨chunk, next, rest, hread, htake, hheader, hintact, hend, hrest⟩
        have hfirst := readChunk_eq_some_iff.mp hread
        have hlength := hfirst.length_le
        obtain ⟨header, picture, hleads, hpicture⟩ := (ih (by omega)).mp hrest
        have hbefore (h : info.header ≠ none) : chunk.type ≠ dataType :=
          hfirst.nextType_eq ▸ hother.resolve_left h
        exact ⟨header, picture, .chunk hfirst hheader hbefore htake hintact hend hleads,
          hpicture⟩
      · rintro ⟨header, picture, hleads, hpicture⟩
        obtain ⟨chunk, next, rest, hread, htake, hheader, hintact, hend, hrest⟩ :=
          hleads.exists_chunk hother
        have hlength := (readChunk_eq_some_iff.mp hread).length_le
        exact ⟨chunk, next, rest, hread, htake, hheader, hintact, hend,
          (ih (by omega)).mpr ⟨header, picture, hrest, hpicture⟩⟩
    · obtain ⟨hknown, htype⟩ := not_or.mp hother
      obtain ⟨known, hknown⟩ := Option.ne_none_iff_exists'.mp hknown
      have htype := Decidable.not_not.mp htype
      rw [isImageFrom_of_data hknown htype, Bool.and_eq_true]
      constructor
      · exact fun h => ⟨known, bytes, .picture hknown h.1 htype, h.2⟩
      · rintro ⟨header, picture, hleads, hpicture⟩
        obtain ⟨rfl, hroom, rfl⟩ := hleads.eq_of_data hknown htype
        exact ⟨hroom, hpicture⟩

/-- The bytes are a PNG image with a header, whatever the size of its whole picture. -/
def Decodes (header : Header) (bytes : List UInt8) : Prop :=
  ∃ chunks picture, bytes = signature ++ chunks ∧
    LeadsTo (.start Header.maxFrameBytes) chunks header picture ∧ HoldsPicture header picture

/-- An image is accepted exactly if it can be decoded within 16 MiB. -/
theorem isImage_iff {bytes : List UInt8} :
    isImage bytes = true ↔
      ∃ header, Decodes header bytes ∧ header.frameBytes ≤ Header.maxFrameBytes := by
  simp only [isImage, Bool.and_eq_true, decide_eq_true_eq]
  have hlength : (bytes.drop 8).length ≤ bytes.length := by simp
  rw [isImageFrom_iff hlength]
  constructor
  · rintro ⟨hsignature, header, picture, hleads, hpicture⟩
    obtain ⟨hsize, hpicture⟩ := isPicture_iff.mp hpicture
    have hbytes : bytes = signature ++ bytes.drop 8 := by
      rw [← hsignature, List.take_append_drop]
    exact ⟨header, ⟨_, picture, hbytes, hleads, hpicture⟩, hsize⟩
  · rintro ⟨header, ⟨chunks, picture, rfl, hleads, hpicture⟩, hsize⟩
    have hchunks : (signature ++ chunks).drop 8 = chunks := List.drop_left' rfl
    exact ⟨List.take_left' rfl, header, picture, hchunks.symm ▸ hleads,
      isPicture_iff.mpr ⟨hsize, hpicture⟩⟩

end AddonLint.Png
