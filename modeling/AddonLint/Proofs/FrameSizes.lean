import AddonLint.Proofs.CutImages

/-!
# Sizes of decoded pictures

The rule on the icon asks a decoder how many bytes a picture takes before it makes a buffer for
it. The size is a machine word, and for large enough pictures it cannot be one. So the bound on
the buffers rests on what a decoder says of its sizes: if it reports one at all, it is the exact
product of the bytes of a row and the number of rows.
-/
namespace AddonLint.Png

/-! ### Header chunks -/

def word (n : Nat) : List UInt8 :=
  [.ofNat (n / 2 ^ 24), .ofNat (n / 2 ^ 16), .ofNat (n / 2 ^ 8), .ofNat n]

theorem bigEndian_word {n : Nat} (h : n < 2 ^ 32) : bigEndian (word n) = n := by
  simp only [bigEndian, word, List.foldl_cons, List.foldl_nil, UInt8.toNat_ofNat']
  omega

def Colour.number : Colour → UInt8
  | .grey => 0
  | .rgb => 2
  | .indexed => 3
  | .greyAlpha => 4
  | .rgbAlpha => 6

@[simp] theorem Colour.ofNumber?_number (colour : Colour) :
    Colour.ofNumber? colour.number.toNat = some colour := by
  cases colour <;> rfl

theorem Colour.depths_lt (colour : Colour) : ∀ depth ∈ colour.depths, depth < 2 ^ 8 := by
  cases colour <;> decide

namespace Header

/-- A header that can stand in an image: two sizes of 32 bits, and a depth of the colour type. -/
structure IsValid (h : Header) : Prop where
  width_pos : 0 < h.width
  width_lt : h.width < 2 ^ 32
  height_pos : 0 < h.height
  height_lt : h.height < 2 ^ 32
  depth : h.depth ∈ h.colour.depths

def data (h : Header) : List UInt8 :=
  word h.width ++ (word h.height ++
    [.ofNat h.depth, h.colour.number, 0, 0, if h.interlaced then 1 else 0])

def chunk (h : Header) : List UInt8 :=
  word h.data.length ++ (headerType ++ (h.data ++ word (checksum (headerType ++ h.data)).toNat))

theorem length_data (h : Header) : h.data.length = 13 := rfl

theorem ofData?_data {h : Header} (hvalid : h.IsValid) : ofData? h.data = some h := by
  have hfields : h.data.drop 8 =
      [.ofNat h.depth, h.colour.number, 0, 0, if h.interlaced then 1 else 0] := rfl
  have hwidth : bigEndian (h.data.take 4) = h.width := bigEndian_word hvalid.width_lt
  have hheight : bigEndian ((h.data.drop 4).take 4) = h.height := bigEndian_word hvalid.height_lt
  have hdepth : (UInt8.ofNat h.depth).toNat = h.depth := by
    rw [UInt8.toNat_ofNat']
    exact Nat.mod_eq_of_lt (h.colour.depths_lt h.depth hvalid.depth)
  have hgood : ¬(h.width = 0 ∨ h.height = 0 ∨ h.depth ∉ h.colour.depths ∨ (0 : UInt8) ≠ 0 ∨
      (0 : UInt8) ≠ 0 ∨ 1 < (if h.interlaced then 1 else 0 : UInt8).toNat) := by
    have hinterlace : ¬1 < (if h.interlaced then 1 else 0 : UInt8).toNat := by
      cases h.interlaced <;> decide
    simp [hvalid.depth, hvalid.width_pos.ne', hvalid.height_pos.ne', hinterlace]
  have hinterlaced : decide ((if h.interlaced then 1 else 0 : UInt8) = 1) = h.interlaced := by
    cases h.interlaced <;> decide
  simp only [ofData?, hfields, hwidth, hheight, hdepth, Colour.ofNumber?_number]
  refine (if_neg hgood).trans ?_
  rw [hinterlaced]

theorem isFirst_chunk (h : Header) (rest : List UInt8) :
    Chunk.IsFirst ⟨headerType, h.data, true⟩ (h.chunk ++ rest) rest := by
  refine ⟨⟨word h.data.length, word (checksum (headerType ++ h.data)).toNat, ?_, rfl, rfl, ?_, ?_⟩,
    rfl⟩
  · simp only [chunk, List.append_assoc]
  · exact bigEndian_word (by rw [length_data]; decide)
  · rw [bigEndian_word (UInt32.toNat_lt _), decide_eq_true rfl]

end Header

/-! ### Decoders -/

/-- A decoder of images, as the rule on the icon uses one. -/
structure Decoder where
  Reader : Type
  /-- Read an image up to its picture, with a limit on the memory for it. -/
  open? : (limit : UInt64) → List UInt8 → Option Reader
  /-- The bytes that the picture is said to take. -/
  bufferSize : Reader → UInt64
  /-- Whether the picture can be decoded into a buffer of a size. -/
  decodes : Reader → (size : UInt64) → Bool

def maxBuffer : UInt64 := .ofNat Header.maxFrameBytes

/-- What a check comes to: the size of the buffer, if one was made, and the answer. -/
structure Check where
  buffer? : Option UInt64
  accepted : Bool

namespace Decoder

/-- Open the image, compare the size of its picture with the limit, and only then make a buffer
and decode the picture into it. -/
def check (d : Decoder) (bytes : List UInt8) : Check :=
  match d.open? maxBuffer bytes with
  | none => ⟨none, false⟩
  | some reader =>
    let size := d.bufferSize reader
    if maxBuffer < size then ⟨none, false⟩ else ⟨some size, d.decodes reader size⟩

/-- An image with a valid header is either not opened, or the size of its picture is exact. -/
def ReportsSizes (d : Decoder) : Prop :=
  ∀ (h : Header) (rest : List UInt8) (limit : UInt64) (reader : d.Reader), h.IsValid →
    d.open? limit (signature ++ (h.chunk ++ rest)) = some reader →
      (d.bufferSize reader).toNat = h.frameBytes

variable {d : Decoder} {bytes : List UInt8}

theorem toNat_maxBuffer : maxBuffer.toNat = Header.maxFrameBytes := by decide

/-- Without a buffer the answer is no. -/
theorem check_cases (d : Decoder) (bytes : List UInt8) :
    d.check bytes = ⟨none, false⟩ ∨
      ∃ reader, d.open? maxBuffer bytes = some reader ∧ d.bufferSize reader ≤ maxBuffer ∧
        d.check bytes = ⟨some (d.bufferSize reader), d.decodes reader (d.bufferSize reader)⟩ := by
  unfold check
  cases d.open? maxBuffer bytes with
  | none => exact .inl rfl
  | some reader =>
    by_cases hsize : maxBuffer < d.bufferSize reader
    · exact .inl (if_pos hsize)
    · exact .inr ⟨reader, rfl, UInt64.not_lt.mp hsize, if_neg hsize⟩

theorem check_of_open {reader : d.Reader} (hopen : d.open? maxBuffer bytes = some reader)
    (hsize : d.bufferSize reader ≤ maxBuffer) :
    d.check bytes = ⟨some (d.bufferSize reader), d.decodes reader (d.bufferSize reader)⟩ := by
  unfold check
  rw [hopen]
  exact if_neg (UInt64.not_lt.mpr hsize)

/-- No buffer is made before the image is open, and none above the limit. -/
theorem open_of_buffer {size : UInt64} (h : (d.check bytes).buffer? = some size) :
    ∃ reader, d.open? maxBuffer bytes = some reader ∧ d.bufferSize reader = size ∧
      size ≤ maxBuffer := by
  rcases check_cases d bytes with hcheck | ⟨reader, hopen, hsize, hcheck⟩
  · rw [hcheck] at h
    cases h
  · rw [hcheck] at h
    cases h
    exact ⟨reader, hopen, rfl, hsize⟩

theorem exists_buffer_of_accepted (h : (d.check bytes).accepted = true) :
    ∃ size, (d.check bytes).buffer? = some size := by
  rcases check_cases d bytes with hcheck | ⟨reader, -, -, hcheck⟩
  · rw [hcheck] at h
    cases h
  · exact ⟨d.bufferSize reader, by rw [hcheck]⟩

/-- No check makes a large buffer, whatever the decoder says. -/
theorem buffer_le {size : UInt64} (h : (d.check bytes).buffer? = some size) :
    size.toNat ≤ Header.maxFrameBytes := by
  obtain ⟨reader, -, -, hsize⟩ := open_of_buffer h
  exact toNat_maxBuffer ▸ UInt64.le_iff_toNat_le.mp hsize

namespace ReportsSizes

variable {h : Header} {rest : List UInt8}

/-- A buffer that was made has the exact size of the picture, never a wrapped one. -/
theorem buffer_eq (hd : d.ReportsSizes) (hvalid : h.IsValid) {size : UInt64}
    (hbuffer : (d.check (signature ++ (h.chunk ++ rest))).buffer? = some size) :
    size.toNat = h.frameBytes := by
  obtain ⟨reader, hopen, rfl, -⟩ := open_of_buffer hbuffer
  exact hd h rest maxBuffer reader hvalid hopen

/-- The header alone decides that a picture is too large. -/
theorem check_of_large (hd : d.ReportsSizes) (hvalid : h.IsValid) (rest : List UInt8)
    (hlarge : Header.maxFrameBytes < h.frameBytes) :
    d.check (signature ++ (h.chunk ++ rest)) = ⟨none, false⟩ := by
  rcases check_cases d (signature ++ (h.chunk ++ rest)) with hcheck | ⟨reader, -, -, hcheck⟩
  · exact hcheck
  · have hbuffer : (d.check (signature ++ (h.chunk ++ rest))).buffer? =
        some (d.bufferSize reader) := by rw [hcheck]
    have hle := buffer_le hbuffer
    rw [hd.buffer_eq hvalid hbuffer] at hle
    exact absurd hlarge (Nat.not_lt_of_le hle)

end ReportsSizes

end Decoder

/-! ### The decoder -/

/-- Take in the chunk at the front. -/
def Info.next? (info : Info) (bytes : List UInt8) : Option (Info × List UInt8) := do
  let (chunk, rest) ← readChunk bytes
  let next ← info.take chunk
  if (info.header = none → chunk.type = headerType) ∧ (isCritical chunk.type → chunk.intact) ∧
      chunk.type ≠ endType then
    some (next, rest)
  else none

/-- Go through the chunks up to the picture. -/
def pictureFrom? : (fuel : Nat) → Info → List UInt8 → Option (Header × List UInt8)
  | 0, _, _ => none
  | fuel + 1, info, bytes =>
    if info.header = none ∨ nextType bytes ≠ dataType then do
      let (next, rest) ← info.next? bytes
      pictureFrom? fuel next rest
    else (info.header.filter info.hasRoom).map fun header => (header, bytes)

theorem Info.next?_eq_some_iff {info next : Info} {bytes rest : List UInt8} :
    info.next? bytes = some (next, rest) ↔
      ∃ chunk, readChunk bytes = some (chunk, rest) ∧ info.take chunk = some next ∧
        (info.header = none → chunk.type = headerType) ∧
        (isCritical chunk.type → chunk.intact) ∧ chunk.type ≠ endType := by
  unfold Info.next?
  constructor
  · intro h
    obtain ⟨⟨chunk, _⟩, hread, h⟩ := Option.bind_eq_some_iff.mp h
    obtain ⟨_, htake, h⟩ := Option.bind_eq_some_iff.mp h
    obtain ⟨hfits, heq⟩ := Option.ite_none_right_eq_some.mp h
    obtain ⟨rfl, rfl⟩ := Prod.mk.inj (Option.some.inj heq)
    exact ⟨chunk, hread, htake, hfits⟩
  · rintro ⟨chunk, hread, htake, hfits⟩
    refine Option.bind_eq_some_iff.mpr ⟨(chunk, rest), hread, ?_⟩
    exact Option.bind_eq_some_iff.mpr ⟨next, htake, if_pos hfits⟩

theorem isImageFrom_eq_true_iff {fuel : Nat} {info : Info} {bytes : List UInt8} :
    isImageFrom fuel info bytes = true ↔
      ∃ header picture, pictureFrom? fuel info bytes = some (header, picture) ∧
        isPicture header picture = true := by
  induction fuel generalizing info bytes with
  | zero =>
    refine iff_of_false Bool.false_ne_true ?_
    rintro ⟨header, picture, hnone, -⟩
    cases hnone
  | succ fuel ih =>
    rw [pictureFrom?]
    split_ifs with hother
    · rw [isImageFrom_succ_iff hother]
      constructor
      · rintro ⟨chunk, next, rest, hread, htake, hheader, hintact, hend, himage⟩
        obtain ⟨header, picture, hfound, hpicture⟩ := ih.mp himage
        have hnext := Info.next?_eq_some_iff.mpr ⟨chunk, hread, htake, hheader, hintact, hend⟩
        exact ⟨header, picture, Option.bind_eq_some_iff.mpr ⟨_, hnext, hfound⟩, hpicture⟩
      · rintro ⟨header, picture, hfound, hpicture⟩
        obtain ⟨⟨next, rest⟩, hnext, hfound⟩ := Option.bind_eq_some_iff.mp hfound
        obtain ⟨chunk, hread, htake, hheader, hintact, hend⟩ := Info.next?_eq_some_iff.mp hnext
        exact ⟨chunk, next, rest, hread, htake, hheader, hintact, hend,
          ih.mpr ⟨header, picture, hfound, hpicture⟩⟩
    · obtain ⟨hknown, htype⟩ := not_or.mp hother
      obtain ⟨known, hknown⟩ := Option.ne_none_iff_exists'.mp hknown
      rw [isImageFrom_of_data hknown (Decidable.not_not.mp htype), Bool.and_eq_true]
      simp only [Option.map_eq_some_iff, Option.filter_eq_some_iff, hknown, Option.some.injEq,
        Prod.mk.injEq]
      constructor
      · rintro ⟨hroom, hpicture⟩
        exact ⟨known, bytes, ⟨known, ⟨rfl, hroom⟩, rfl, rfl⟩, hpicture⟩
      · rintro ⟨header, picture, ⟨_, ⟨rfl, hroom⟩, rfl, rfl⟩, hpicture⟩
        exact ⟨hroom, hpicture⟩

/-- Data that the buffer has room for take no memory. -/
theorem Memory.hold?_of_le {m : Memory} {bytes : Nat} (h : bytes ≤ m.buffer) :
    m.hold? bytes = some m := by
  unfold hold?
  cases bytes with
  | zero => exact if_pos h
  | succ _ => exact if_pos h

/-- The header takes no memory. -/
theorem Info.take_header {h : Header} (hvalid : h.IsValid) (limit : Nat) :
    (start limit).take ⟨headerType, h.data, true⟩ =
      some ⟨some h, [headerType], .start limit⟩ := by
  have hframe : headerType ≠ frameDataType := by decide
  have hfull : ¬h.data.isEmpty = true := Bool.false_ne_true
  have hlength : h.data.length ≤ (Memory.start limit).buffer := by
    change 13 ≤ 32 * 1024
    decide
  have hfits : (start limit).memory.hold? h.data.length = some (.start limit) :=
    Memory.hold?_of_le hlength
  rw [take, if_neg hframe, if_neg hfull, hfits]
  simp only [start, Header.ofData?_data hvalid, Option.map_some]

/-- Once given, the header does not change. -/
theorem Info.header_of_take {info next : Info} {chunk : Chunk} {header : Header}
    (h : info.header = some header) (htake : info.take chunk = some next) :
    next.header = some header := by
  obtain ⟨hframe, htake⟩ := Option.ite_none_left_eq_some.mp htake
  split_ifs at htake
  · cases htake
    exact h
  · rw [h] at htake
    split at htake
    next => cases htake
    next hnone _ => cases hnone
    next known _ hknown _ =>
      cases hknown
      obtain ⟨-, htake⟩ := Option.ite_none_right_eq_some.mp htake
      obtain ⟨_, -, rfl⟩ := Option.map_eq_some_iff.mp htake
      rfl

/-- A header stays the same up to the picture. -/
theorem header_of_pictureFrom? {fuel : Nat} {info : Info} {bytes picture : List UInt8}
    {header found : Header} (h : info.header = some header)
    (hfound : pictureFrom? fuel info bytes = some (found, picture)) : found = header := by
  induction fuel generalizing info bytes with
  | zero => cases hfound
  | succ fuel ih =>
    rw [pictureFrom?] at hfound
    split_ifs at hfound with hother
    · obtain ⟨⟨next, rest⟩, hnext, hfound⟩ := Option.bind_eq_some_iff.mp hfound
      obtain ⟨chunk, -, htake, -⟩ := Info.next?_eq_some_iff.mp hnext
      exact ih (Info.header_of_take h htake) hfound
    · rw [h] at hfound
      obtain ⟨_, hknown, heq⟩ := Option.map_eq_some_iff.mp hfound
      obtain ⟨hsame, -⟩ := Option.filter_eq_some_iff.mp hknown
      exact (Prod.mk.inj heq).1.symm.trans (Option.some.inj hsame).symm

/-- The first chunk gives the header. -/
theorem header_of_first {fuel limit : Nat} {h found : Header} (hvalid : h.IsValid)
    {rest picture : List UInt8}
    (hfound : pictureFrom? fuel (.start limit) (h.chunk ++ rest) = some (found, picture)) :
    found = h := by
  cases fuel with
  | zero => cases hfound
  | succ fuel =>
    rw [pictureFrom?, if_pos (.inl rfl)] at hfound
    obtain ⟨⟨next, others⟩, hnext, hfound⟩ := Option.bind_eq_some_iff.mp hfound
    obtain ⟨chunk, hread, htake, -⟩ := Info.next?_eq_some_iff.mp hnext
    rw [readChunk_eq_some_iff.mpr (h.isFirst_chunk rest)] at hread
    obtain ⟨rfl, rfl⟩ := Prod.mk.inj (Option.some.inj hread)
    rw [Info.take_header hvalid limit] at htake
    cases htake
    exact header_of_pictureFrom? rfl hfound

/-- The chunks of a byte string up to its picture. An image is opened if there is memory for its
chunks and for a row of its picture, and if the size of its picture is a machine word. -/
def decoder : Decoder where
  Reader := Header × List UInt8
  open? limit bytes :=
    if bytes.take 8 = signature then
      (pictureFrom? bytes.length (.start limit.toNat) (bytes.drop 8)).filter fun picture =>
        picture.1.frameBytes < UInt64.size
    else none
  bufferSize picture := .ofNat (picture.1.rowBytes picture.1.width) * .ofNat picture.1.height
  decodes picture _ :=
    match (joinData (picture.2.length + 1) [] picture.2).bind Inflate.zlib with
    | some pixels => holdsRows pixels picture.1.rowGroups 0
    | none => false

theorem isPicture_eq_true_iff (picture : Header × List UInt8) (size : UInt64) :
    isPicture picture.1 picture.2 = true ↔
      picture.1.frameBytes ≤ Header.maxFrameBytes ∧ decoder.decodes picture size = true := by
  unfold isPicture
  split_ifs with hsize
  · exact iff_of_false not_false fun h => absurd h.1 (Nat.not_le_of_lt hsize)
  · exact (and_iff_right (Nat.le_of_not_lt hsize)).symm

namespace Decoder

variable {bytes : List UInt8} {picture : Header × List UInt8}

theorem open?_decoder_eq_some_iff {limit : UInt64} :
    decoder.open? limit bytes = some picture ↔
      bytes.take 8 = signature ∧
        pictureFrom? bytes.length (.start limit.toNat) (bytes.drop 8) = some picture ∧
        picture.1.frameBytes < UInt64.size := by
  change (if bytes.take 8 = signature then _ else none) = some picture ↔ _
  rw [Option.ite_none_right_eq_some, Option.filter_eq_some_iff, decide_eq_true_eq]

/-- The size of a picture that is opened does not wrap around. -/
theorem toNat_bufferSize_decoder (h : picture.1.frameBytes < UInt64.size) :
    (decoder.bufferSize picture).toNat = picture.1.frameBytes := by
  change (UInt64.ofNat _ * UInt64.ofNat _).toNat = _
  rw [UInt64.toNat_mul, UInt64.toNat_ofNat', UInt64.toNat_ofNat', ← Nat.mul_mod]
  exact Nat.mod_eq_of_lt h

/-- An image whose size is no machine word is not opened, so that no size is ever wrapped. -/
theorem reportsSizes_decoder : decoder.ReportsSizes := by
  rintro h rest limit ⟨found, picture⟩ hvalid hopen
  obtain ⟨-, hfound, hsize⟩ := open?_decoder_eq_some_iff.mp hopen
  rw [List.drop_left' (by rfl)] at hfound
  obtain rfl := header_of_first hvalid hfound
  rw [toNat_bufferSize_decoder hsize]

/-- The check with the decoder accepts exactly the images that the rule accepts. -/
theorem accepted_decoder (bytes : List UInt8) : (decoder.check bytes).accepted = isImage bytes := by
  rw [Bool.eq_iff_iff]
  simp only [isImage, Bool.and_eq_true, decide_eq_true_eq, isImageFrom_eq_true_iff]
  constructor
  · intro h
    rcases check_cases decoder bytes with hcheck | ⟨picture, hopen, hsize, hcheck⟩
    · rw [hcheck] at h
      cases h
    · rw [hcheck] at h
      obtain ⟨hsignature, hfound, hword⟩ := open?_decoder_eq_some_iff.mp hopen
      rw [UInt64.le_iff_toNat_le, toNat_maxBuffer, toNat_bufferSize_decoder hword] at hsize
      exact ⟨hsignature, picture.1, picture.2, hfound,
        (isPicture_eq_true_iff picture (decoder.bufferSize picture)).mpr ⟨hsize, h⟩⟩
  · rintro ⟨hsignature, header, picture, hfound, hpicture⟩
    obtain ⟨hsize, hdecodes⟩ :=
      (isPicture_eq_true_iff (header, picture) (decoder.bufferSize (header, picture))).mp hpicture
    have hword : header.frameBytes < UInt64.size := Nat.lt_of_le_of_lt hsize (by decide)
    have hopen : decoder.open? maxBuffer bytes = some (header, picture) :=
      open?_decoder_eq_some_iff.mpr ⟨hsignature, hfound, hword⟩
    have hfits : decoder.bufferSize (header, picture) ≤ maxBuffer := by
      rw [UInt64.le_iff_toNat_le, toNat_maxBuffer, toNat_bufferSize_decoder hword]
      exact hsize
    rw [check_of_open hopen hfits]
    exact hdecodes

end Decoder

end AddonLint.Png

namespace AddonLint.Rules

/-- The verdict on the icon, by a check on its bytes. -/
def judgeIconBy (accepts : List UInt8 → Bool) (addon : AddonMetadata) : Verdict :=
  if addon.icon = "" then .fail (IconFault.missing.words ++ addon.id)
  else
    match Base64.decode (withoutBreaks addon.icon) with
    | none => .fail (IconFault.undecodable.words ++ addon.id)
    | some bytes => .check (accepts bytes) (IconFault.noImage.words ++ addon.id)

/-- The rule on the icon with any decoder of images. -/
def iconBy (d : Png.Decoder) : Rule :=
  { icon with
    runner subject := .verdict (judgeIconBy (fun bytes => (d.check bytes).accepted) subject.addon) }

theorem iconBy_decoder : iconBy Png.decoder = icon := by
  unfold iconBy
  simp only [Png.Decoder.accepted_decoder]
  rfl

section By

variable {accepts : List UInt8 → Bool} {addon : AddonMetadata} {bytes : List UInt8}

theorem judgeIconBy_of_refused (hbytes : Encodes addon.icon bytes) (hne : bytes ≠ [])
    (h : accepts bytes = false) :
    judgeIconBy accepts addon = .fail (IconFault.noImage.words ++ addon.id) := by
  have hicon : addon.icon ≠ "" := by
    intro hempty
    have hnil : Encodes addon.icon [] := by rw [hempty]; rfl
    exact hne (hbytes.unique hnil)
  simp only [judgeIconBy, if_neg hicon, encodes_iff.mp hbytes, h]
  rfl

theorem accepts_of_judgeIconBy (hbytes : Encodes addon.icon bytes)
    (h : judgeIconBy accepts addon = .pass) : accepts bytes = true := by
  unfold judgeIconBy at h
  rw [encodes_iff.mp hbytes] at h
  split_ifs at h with hempty
  · cases h
  · cases haccepts : accepts bytes with
    | true => rfl
    | false =>
      simp only [haccepts] at h
      cases h

end By

/-- The sizes of the pictures that the rule on the icon lets through, for every decoder that opens
no image with a wrong size of its picture, and so for the decoder of the rule itself. A picture
above the limit fails by its header alone, and no buffer is made for it. -/
theorem icon_frame_sizes :
    (iconBy Png.decoder = icon ∧ Png.decoder.ReportsSizes) ∧
      (∀ (subject : Subject) (s : String), icon.runner (withIcon subject s) = .verdict .pass →
        ∃ bytes h, Encodes s bytes ∧ Png.Decodes h bytes ∧ h.frameBytes ≤ 16 * 1024 * 1024) ∧
      ∀ d : Png.Decoder, d.ReportsSizes → ∀ (subject : Subject) (s : String) (bytes : List UInt8),
        Encodes s bytes →
          (∀ (h : Png.Header) (rest : List UInt8), h.IsValid →
            bytes = Png.signature ++ (h.chunk ++ rest) → 16 * 1024 * 1024 < h.frameBytes →
              (iconBy d).runner (withIcon subject s) =
                  .verdict (.fail (IconFault.noImage.words ++ subject.addon.id)) ∧
                (d.check bytes).buffer? = none) ∧
          (∀ size, (d.check bytes).buffer? = some size → size.toNat ≤ 16 * 1024 * 1024 ∧
            ∀ (h : Png.Header) (rest : List UInt8), h.IsValid →
              bytes = Png.signature ++ (h.chunk ++ rest) → size.toNat = h.frameBytes) ∧
          ((iconBy d).runner (withIcon subject s) = .verdict .pass →
            ∃ size, (d.check bytes).buffer? = some size) := by
  refine ⟨⟨iconBy_decoder, Png.Decoder.reportsSizes_decoder⟩, ?_, ?_⟩
  · intro subject s hpass
    obtain ⟨bytes, hbytes, himage⟩ := runner_icon_eq_pass_iff.mp hpass
    obtain ⟨h, hdecodes, hsize⟩ := Png.isImage_iff.mp himage
    exact ⟨bytes, h, hbytes, hdecodes, hsize⟩
  intro d hd subject s bytes hs
  refine ⟨?_, fun size hbuffer => ⟨Png.Decoder.buffer_le hbuffer, ?_⟩, ?_⟩
  · rintro h rest hvalid rfl hlarge
    have hcheck := hd.check_of_large hvalid rest hlarge
    refine ⟨congrArg RunnerEnd.verdict ?_, by rw [hcheck]⟩
    exact judgeIconBy_of_refused hs (List.cons_ne_nil _ _) (by rw [hcheck])
  · rintro h rest hvalid rfl
    exact hd.buffer_eq hvalid hbuffer
  · intro hpass
    exact Png.Decoder.exists_buffer_of_accepted
      (accepts_of_judgeIconBy hs (RunnerEnd.verdict.inj hpass))

/-- The header of a picture with exactly as many bytes as there are machine words, so that their
number is zero as a machine word. -/
def wrapping : Png.Header := ⟨2 ^ 31, 2 ^ 30, 16, .rgbAlpha, false⟩

theorem icon_frame_sizes_wrapping :
    wrapping.frameBytes = 2 ^ 64 ∧
      Png.decoder.bufferSize (wrapping, []) = 0 ∧
      icon.runner (withIcon namesOnly (iconText (Png.signature ++ (wrapping.chunk ++ [])))) =
        .verdict (.fail (IconFault.noImage.words ++ namesOnly.addon.id)) := by
  have hsize : wrapping.frameBytes = 2 ^ 64 := rfl
  have hvalid : wrapping.IsValid := by constructor <;> decide
  obtain ⟨⟨hicon, hreports⟩, -, hsizes⟩ := icon_frame_sizes
  obtain ⟨hlarge, -⟩ := hsizes Png.decoder hreports namesOnly _ _ (encodes_iconText _)
  have hfail := (hlarge wrapping [] hvalid rfl (by rw [hsize]; decide)).1
  rw [hicon] at hfail
  exact ⟨hsize, by decide, hfail⟩

end AddonLint.Rules
