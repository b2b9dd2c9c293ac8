import AddonLint.Icon.Base64
import Mathlib.Tactic.SplitIfs

/-!
# One text for each byte string

Decoding accepts the texts that encoding makes and no others. So a byte string has
exactly one text, and a text without the padding of its last group, with bits set
that the padding stands for, or with any other character is refused.
-/
namespace AddonLint.Base64

theorem value?_digit : ∀ n < 64, value? (digit n) = some n := by decide

theorem digit_ne_pad : ∀ n < 64, digit n ≠ '=' := by decide

theorem toNat_lt_of_value? {c : Char} {n : Nat} (h : value? c = some n) : c.toNat < 128 := by
  unfold value? at h
  split_ifs at h with hupper hlower hnumeral hplus hslash
  · exact Nat.lt_of_le_of_lt hupper.2 (by decide)
  · exact Nat.lt_of_le_of_lt hlower.2 (by decide)
  · exact Nat.lt_of_le_of_lt hnumeral.2 (by decide)
  · subst hplus
    decide
  · subst hslash
    decide

/-- All characters with a value are among the first 128, which are checked one by one. -/
theorem value?_ofNat : ∀ k < 128, ∀ n ∈ value? (Char.ofNat k), n < 64 ∧ digit n = Char.ofNat k := by
  decide

theorem value?_eq_some_iff {c : Char} {n : Nat} : value? c = some n ↔ n < 64 ∧ digit n = c := by
  constructor
  · intro h
    have hn := value?_ofNat c.toNat (toNat_lt_of_value? h) n
    rw [Char.ofNat_toNat] at hn
    exact hn h
  · rintro ⟨h, rfl⟩
    exact value?_digit n h

/-! ### Groups of four characters -/

theorem decode_two_iff {a b : Char} {bytes : List UInt8} :
    decode [a, b, '=', '='] = some bytes ↔ ∃ x, [a, b, '=', '='] = encode [x] ∧ bytes = [x] := by
  simp only [decode, encode, Option.bind_eq_bind, Option.bind_eq_some_iff, value?_eq_some_iff,
    Option.ite_none_right_eq_some, Option.some.injEq, List.cons.injEq, and_true]
  constructor
  · rintro ⟨m, ⟨hm, rfl⟩, n, ⟨hn, rfl⟩, hbits, rfl⟩
    refine ⟨_, ⟨congrArg digit ?_, congrArg digit ?_⟩, rfl⟩
    all_goals
      rw [UInt8.toNat_ofNat']
      omega
  · rintro ⟨x, ⟨rfl, rfl⟩, rfl⟩
    have hx := x.toNat_lt
    refine ⟨_, ⟨by omega, rfl⟩, _, ⟨by omega, rfl⟩, by omega, ?_⟩
    rw [List.cons_eq_cons, UInt8.ofNat_eq_iff_mod_eq_toNat]
    exact ⟨by omega, rfl⟩

theorem decode_three_iff {a b c : Char} (h : c ≠ '=') {bytes : List UInt8} :
    decode [a, b, c, '='] = some bytes ↔
      ∃ x y, [a, b, c, '='] = encode [x, y] ∧ bytes = [x, y] := by
  rw [decode.eq_3 a b c h]
  simp only [encode, Option.bind_eq_bind, Option.bind_eq_some_iff, value?_eq_some_iff,
    Option.ite_none_right_eq_some, Option.some.injEq, List.cons.injEq, and_true]
  constructor
  · rintro ⟨m, ⟨hm, rfl⟩, n, ⟨hn, rfl⟩, k, ⟨hk, rfl⟩, hbits, rfl⟩
    refine ⟨_, _, ⟨congrArg digit ?_, congrArg digit ?_, congrArg digit ?_⟩, rfl⟩
    all_goals
      rw [UInt8.toNat_ofNat', UInt8.toNat_ofNat']
      omega
  · rintro ⟨x, y, ⟨rfl, rfl, rfl⟩, rfl⟩
    have hx := x.toNat_lt
    have hy := y.toNat_lt
    refine ⟨_, ⟨by omega, rfl⟩, _, ⟨by omega, rfl⟩, _, ⟨by omega, rfl⟩, by omega, ?_⟩
    refine List.cons_eq_cons.mpr ⟨?_, List.cons_eq_cons.mpr ⟨?_, rfl⟩⟩
    all_goals
      rw [UInt8.ofNat_eq_iff_mod_eq_toNat]
      omega

/-- A group of four characters stands for three bytes unless it is the padded last one. -/
theorem decode_four_iff {a b c d : Char} {rest : List Char} (h : d = '=' → rest ≠ [])
    {bytes : List UInt8} : decode (a :: b :: c :: d :: rest) = some bytes ↔
      ∃ x y z tail, [a, b, c, d] = encode [x, y, z] ∧ decode rest = some tail ∧
        bytes = x :: y :: z :: tail := by
  rw [decode.eq_4 a b c d rest (fun _ hd hrest => h hd hrest) h]
  simp only [encode, Option.bind_eq_bind, Option.bind_eq_some_iff, value?_eq_some_iff,
    Option.some.injEq, List.cons.injEq, and_true]
  constructor
  · rintro ⟨m, ⟨hm, rfl⟩, n, ⟨hn, rfl⟩, k, ⟨hk, rfl⟩, l, ⟨hl, rfl⟩, tail, htail, rfl⟩
    refine ⟨_, _, _, tail, ⟨congrArg digit ?_, congrArg digit ?_, congrArg digit ?_,
      congrArg digit ?_⟩, htail, rfl⟩
    all_goals
      rw [UInt8.toNat_ofNat', UInt8.toNat_ofNat', UInt8.toNat_ofNat']
      omega
  · rintro ⟨x, y, z, tail, ⟨rfl, rfl, rfl, rfl⟩, htail, rfl⟩
    have hx := x.toNat_lt
    have hy := y.toNat_lt
    have hz := z.toNat_lt
    refine ⟨_, ⟨by omega, rfl⟩, _, ⟨by omega, rfl⟩, _, ⟨by omega, rfl⟩, _, ⟨by omega, rfl⟩,
      tail, htail, ?_⟩
    refine List.cons_eq_cons.mpr ⟨?_, List.cons_eq_cons.mpr ⟨?_, List.cons_eq_cons.mpr ⟨?_, rfl⟩⟩⟩
    all_goals
      rw [UInt8.ofNat_eq_iff_mod_eq_toNat]
      omega

/-- What was encoded is decoded again. -/
theorem decode_encode (bytes : List UInt8) : decode (encode bytes) = some bytes := by
  induction bytes using encode.induct with
  | case1 => rfl
  | case2 x => exact decode_two_iff.mpr ⟨x, rfl, rfl⟩
  | case3 x y => exact (decode_three_iff (digit_ne_pad _ (by omega))).mpr ⟨x, y, rfl, rfl⟩
  | case4 x y z rest ih =>
    refine (decode_four_iff ?_).mpr ⟨x, y, z, rest, rfl, ih, rfl⟩
    exact fun h => absurd h (digit_ne_pad _ (by omega))

/-- Only the canonical text of a byte string is decoded. -/
theorem eq_encode_of_decode {cs : List Char} {bytes : List UInt8} (h : decode cs = some bytes) :
    cs = encode bytes := by
  induction cs using decode.induct generalizing bytes with
  | case1 =>
    rw [decode.eq_1, Option.some.injEq] at h
    rw [← h, encode.eq_1]
  | case2 a b =>
    obtain ⟨x, hcs, rfl⟩ := decode_two_iff.mp h
    exact hcs
  | case3 a b c hc =>
    obtain ⟨x, y, hcs, rfl⟩ := (decode_three_iff hc).mp h
    exact hcs
  | case4 a b c d rest _ hd ih =>
    obtain ⟨x, y, z, tail, hcs, htail, rfl⟩ := (decode_four_iff hd).mp h
    rw [ih htail, encode.eq_4]
    simpa [encode] using hcs
  | case5 cs h₁ h₂ h₃ h₄ => rw [decode.eq_5 cs h₁ h₂ h₃ h₄] at h; cases h

theorem decode_eq_some_iff {cs : List Char} {bytes : List UInt8} :
    decode cs = some bytes ↔ cs = encode bytes :=
  ⟨eq_encode_of_decode, fun h => h ▸ decode_encode bytes⟩

/-- Two byte strings never share a text. -/
theorem encode_injective : Function.Injective encode := fun bytes others h =>
  Option.some.inj (by rw [← decode_encode bytes, h, decode_encode])

/-! ### Groups of an encoded text -/

theorem drop_encode (bytes : List UInt8) (k : Nat) :
    (encode bytes).drop (4 * k) = encode (bytes.drop (3 * k)) := by
  induction k generalizing bytes with
  | zero => rfl
  | succ k ih =>
    have hgroup : (encode bytes).drop 4 = encode (bytes.drop 3) := by
      cases bytes using encode.induct with
      | case1 => rfl
      | case2 x => rfl
      | case3 x y => rfl
      | case4 x y z rest => rfl
    rw [Nat.mul_succ, Nat.mul_succ, Nat.add_comm, Nat.add_comm (3 * k), ← List.drop_drop,
      ← List.drop_drop, hgroup, ih]

theorem four_dvd_length_encode (bytes : List UInt8) : 4 ∣ (encode bytes).length := by
  induction bytes using encode.induct with
  | case1 => exact ⟨0, rfl⟩
  | case2 x => exact ⟨1, rfl⟩
  | case3 x y => exact ⟨1, rfl⟩
  | case4 x y z rest ih =>
    simp only [encode, List.length_cons]
    omega

/-- What follows whole groups of an encoded text is an encoded text. -/
theorem exists_encode_of_append {before after : List Char} {bytes : List UInt8}
    (h : encode bytes = before ++ after) (hafter : 4 ∣ after.length) :
    ∃ rest, encode rest = after := by
  have hlength := four_dvd_length_encode bytes
  rw [h, List.length_append, Nat.dvd_add_left hafter] at hlength
  obtain ⟨k, hk⟩ := hlength
  refine ⟨bytes.drop (3 * k), ?_⟩
  rw [← drop_encode, h, List.drop_left' hk]

theorem exists_digit_of_mem {c : Char} {bytes : List UInt8} (h : c ∈ encode bytes) :
    c = '=' ∨ ∃ n < 64, c = digit n := by
  induction bytes using encode.induct with
  | case1 => cases h
  | case2 x =>
    have hx := x.toNat_lt
    simp only [encode, List.mem_cons, List.not_mem_nil, or_false] at h
    rcases h with rfl | rfl | rfl | rfl
    · exact .inr ⟨_, by omega, rfl⟩
    · exact .inr ⟨_, by omega, rfl⟩
    · exact .inl rfl
    · exact .inl rfl
  | case3 x y =>
    have hx := x.toNat_lt
    have hy := y.toNat_lt
    simp only [encode, List.mem_cons, List.not_mem_nil, or_false] at h
    rcases h with rfl | rfl | rfl | rfl
    · exact .inr ⟨_, by omega, rfl⟩
    · exact .inr ⟨_, by omega, rfl⟩
    · exact .inr ⟨_, by omega, rfl⟩
    · exact .inl rfl
  | case4 x y z rest ih =>
    have hx := x.toNat_lt
    have hy := y.toNat_lt
    have hz := z.toNat_lt
    simp only [encode, List.mem_cons] at h
    rcases h with rfl | rfl | rfl | rfl | h
    · exact .inr ⟨_, by omega, rfl⟩
    · exact .inr ⟨_, by omega, rfl⟩
    · exact .inr ⟨_, by omega, rfl⟩
    · exact .inr ⟨_, by omega, rfl⟩
    · exact ih h

/-- Padding stands at the end of a group and not in front of one. -/
theorem encode_ne_pad_cons (bytes : List UInt8) (tail : List Char) :
    encode bytes ≠ '=' :: tail := by
  intro h
  cases bytes using encode.induct with
  | case1 => cases h
  | case2 x =>
    have hx := x.toNat_lt
    exact digit_ne_pad _ (by omega) (List.cons_eq_cons.mp h).1
  | case3 x y =>
    have hx := x.toNat_lt
    have hy := y.toNat_lt
    exact digit_ne_pad _ (by omega) (List.cons_eq_cons.mp h).1
  | case4 x y z rest =>
    have hx := x.toNat_lt
    have hy := y.toNat_lt
    have hz := z.toNat_lt
    exact digit_ne_pad _ (by omega) (List.cons_eq_cons.mp h).1

/-- Without its padding an encoded text is none. -/
theorem encode_ne_of_append_pads {cs : List Char} {k : Nat} (hk : 0 < k) {bytes : List UInt8}
    (h : cs ++ List.replicate k '=' = encode bytes) (others : List UInt8) : encode others ≠ cs := by
  rintro rfl
  obtain ⟨k, rfl⟩ := Nat.exists_eq_succ_of_ne_zero (Nat.ne_of_gt hk)
  have hpads : 4 ∣ (List.replicate (k + 1) '=').length := by
    have hbytes := four_dvd_length_encode bytes
    rw [← h, List.length_append] at hbytes
    exact (Nat.dvd_add_right (four_dvd_length_encode others)).mp hbytes
  obtain ⟨rest, hrest⟩ := exists_encode_of_append h.symm hpads
  exact encode_ne_pad_cons rest _ (hrest.trans List.replicate_succ)

theorem digit_injective {m n : Nat} (hm : m < 64) (hn : n < 64) (h : digit m = digit n) :
    m = n :=
  Option.some.inj ((value?_digit m hm).symm.trans ((congrArg value? h).trans (value?_digit n hn)))

/-- The bits that two padding characters stand for are not set. -/
theorem unused_bits_two {before : List Char} {a : Char} {n : Nat} (hn : n < 64)
    {bytes : List UInt8} (h : encode bytes = before ++ [a, digit n, '=', '=']) : n % 16 = 0 := by
  obtain ⟨rest, hrest⟩ := exists_encode_of_append h ⟨1, rfl⟩
  have hdecode : decode [a, digit n, '=', '='] = some rest := hrest ▸ decode_encode rest
  obtain ⟨x, hx, -⟩ := decode_two_iff.mp hdecode
  simp only [encode, List.cons.injEq] at hx
  have hdigit := digit_injective hn (by omega) hx.2.1
  omega

/-- The bits that one padding character stands for are not set. -/
theorem unused_bits_one {before : List Char} {a b : Char} {n : Nat} (hn : n < 64)
    {bytes : List UInt8} (h : encode bytes = before ++ [a, b, digit n, '=']) : n % 4 = 0 := by
  obtain ⟨rest, hrest⟩ := exists_encode_of_append h ⟨1, rfl⟩
  have hdecode : decode [a, b, digit n, '='] = some rest := hrest ▸ decode_encode rest
  obtain ⟨x, y, hxy, -⟩ := (decode_three_iff (digit_ne_pad n hn)).mp hdecode
  simp only [encode, List.cons.injEq] at hxy
  have hdigit := digit_injective hn (by omega) hxy.2.2.1
  omega

end AddonLint.Base64
