import Mathlib.Order.Basic
import Mathlib.Data.List.Basic
import Mathlib.Data.List.Nodup
import Mathlib.Data.List.Perm.Basic

/-!
# Text is ordered by its bytes

Texts are compared character by character. UTF-8 keeps that order: the bytes of a
smaller character are lexicographically smaller, and no encoding continues another
one, so comparing the bytes of two texts gives the same answer.
-/
namespace AddonLint.Text

/-- The bytes of a text in UTF-8. -/
def bytes (s : String) : List UInt8 := s.toByteArray.data.toList

/-- One text before another in the order of their bytes. -/
def BytesLt (s t : String) : Prop := bytes s < bytes t

instance (s t : String) : Decidable (BytesLt s t) := inferInstanceAs (Decidable (bytes s < bytes t))

theorem bytes_eq_flatMap (s : String) : bytes s = s.toList.flatMap String.utf8EncodeChar := by
  rw [bytes, ← String.utf8Encode_toList, List.utf8Encode, List.data_toByteArray]

/-- The order of numbers is the lexicographic order of their digits to base 64. -/
theorem digits_lt {m n : Nat} (h : m < n) :
    m / 262144 < n / 262144 ∨ m / 262144 = n / 262144 ∧
      (m / 4096 % 64 < n / 4096 % 64 ∨ m / 4096 % 64 = n / 4096 % 64 ∧
        (m / 64 % 64 < n / 64 % 64 ∨ m / 64 % 64 = n / 64 % 64 ∧ m % 64 < n % 64)) := by
  have hm : m / 4096 = m / 64 / 64 ∧ m / 262144 = m / 64 / 64 / 64 := by omega
  have hn : n / 4096 = n / 64 / 64 ∧ n / 262144 = n / 64 / 64 / 64 := by omega
  rw [hm.1, hm.2, hn.1, hn.2]
  have hlast : m / 64 < n / 64 ∨ m / 64 = n / 64 ∧ m % 64 < n % 64 := by omega
  generalize m / 64 = m' at *
  generalize n / 64 = n' at *
  have hnext : m' < n' → m' / 64 < n' / 64 ∨ m' / 64 = n' / 64 ∧ m' % 64 < n' % 64 := by omega
  omega

theorem cons_ofNat_lt_iff (m n : Nat) (u w : List UInt8) :
    UInt8.ofNat m :: u < UInt8.ofNat n :: w ↔
      m % 256 < n % 256 ∨ m % 256 = n % 256 ∧ u < w := by
  rw [List.cons_lt_cons_iff, UInt8.lt_iff_toNat_lt, ← UInt8.toNat_inj, UInt8.toNat_ofNat',
    UInt8.toNat_ofNat']

/-- The four bytes of a character outside the basic plane. -/
theorem utf8EncodeChar_of_large {c : Char} (h : 0xffff < c.val.toNat) :
    String.utf8EncodeChar c =
      [UInt8.ofNat (c.val.toNat / 262144 + 0xf0), UInt8.ofNat (c.val.toNat / 4096 % 64 + 0x80),
        UInt8.ofNat (c.val.toNat / 64 % 64 + 0x80), UInt8.ofNat (c.val.toNat % 64 + 0x80)] := by
  have hvalid := c.valid
  simp only [UInt32.isValidChar, Nat.isValidChar] at hvalid
  have hlead : c.val.toNat / 262144 % 8 = c.val.toNat / 262144 := by omega
  unfold String.utf8EncodeChar
  dsimp only
  rw [if_neg (by omega), if_neg (by omega), if_neg (by omega), hlead]

/-- A smaller character has smaller bytes, whatever follows either of them. -/
theorem utf8EncodeChar_append_lt {c d : Char} (h : c < d) (u w : List UInt8) :
    String.utf8EncodeChar c ++ u < String.utf8EncodeChar d ++ w := by
  have hlt : c.val.toNat < d.val.toNat := h
  have hd : d.val.toNat < 0x110000 := by
    have hvalid := d.valid
    simp only [UInt32.isValidChar, Nat.isValidChar] at hvalid
    omega
  by_cases hlarge : 0xffff < c.val.toNat
  · have hdigits := digits_lt hlt
    rw [utf8EncodeChar_of_large hlarge, utf8EncodeChar_of_large (Nat.lt_trans hlarge hlt)]
    simp (disch := omega) only [List.cons_append, cons_ofNat_lt_iff, Nat.mod_eq_of_lt,
      Nat.add_lt_add_iff_right, Nat.add_right_cancel_iff]
    tauto
  · -- Up to three bytes, the encodings are few enough to compare them all.
    unfold String.utf8EncodeChar
    dsimp only
    split_ifs <;>
      simp only [List.cons_append, List.nil_append, cons_ofNat_lt_iff] <;>
      omega

/-- Encoding in UTF-8 keeps the order of the code points. -/
theorem flatMap_utf8EncodeChar_lt {cs ds : List Char} (h : cs < ds) :
    cs.flatMap String.utf8EncodeChar < ds.flatMap String.utf8EncodeChar := by
  induction cs generalizing ds with
  | nil =>
    cases ds with
    | nil => exact absurd h (List.lt_irrefl [])
    | cons d ds =>
      rw [List.flatMap_nil, List.flatMap_cons]
      obtain ⟨b, bs, hb⟩ := List.exists_cons_of_ne_nil (String.utf8EncodeChar_ne_nil (c := d))
      rw [hb]
      exact List.nil_lt_cons ..
  | cons c cs ih =>
    cases ds with
    | nil => exact absurd h (List.not_lt_nil _)
    | cons d ds =>
      rw [List.flatMap_cons, List.flatMap_cons]
      rcases List.cons_lt_cons_iff.1 h with hlt | ⟨rfl, hlt⟩
      · exact utf8EncodeChar_append_lt hlt _ _
      · exact List.append_left_lt (ih hlt)

/-- The order of texts is the order of their bytes. -/
theorem bytesLt_iff {s t : String} : BytesLt s t ↔ s < t := by
  unfold BytesLt
  rw [bytes_eq_flatMap, bytes_eq_flatMap]
  refine ⟨fun h => ?_, fun h => flatMap_utf8EncodeChar_lt h⟩
  by_contra hst
  by_cases hts : t < s
  · exact List.lt_asymm h (flatMap_utf8EncodeChar_lt hts)
  · obtain rfl := String.le_antisymm (String.not_lt.1 hts) (String.not_lt.1 hst)
    exact List.lt_irrefl _ h

/-! ### Sorting by texts -/

variable {α : Type}

theorem pairwise_mergeSort_le (key : α → String) (xs : List α) :
    (xs.mergeSort fun a b => key a ≤ key b).Pairwise fun a b => key a ≤ key b := by
  have htrans : ∀ a b c : α, decide (key a ≤ key b) = true → decide (key b ≤ key c) = true →
      decide (key a ≤ key c) = true :=
    fun a b c hab hbc =>
      decide_eq_true (String.le_trans (of_decide_eq_true hab) (of_decide_eq_true hbc))
  have htotal : ∀ a b : α, (decide (key a ≤ key b) || decide (key b ≤ key a)) = true :=
    fun a b => by simpa using String.le_total (key a) (key b)
  exact (List.pairwise_mergeSort htrans htotal xs).imp of_decide_eq_true

/-- Items with different keys are in strictly increasing order once they are sorted. -/
theorem pairwise_mergeSort_lt (key : α → String) {xs : List α} (h : (xs.map key).Nodup) :
    (xs.mergeSort fun a b => key a ≤ key b).Pairwise fun a b => key a < key b := by
  have hne : (xs.mergeSort fun a b => key a ≤ key b).Pairwise fun a b => key a ≠ key b :=
    List.pairwise_map.1 (((List.mergeSort_perm xs _).map key).nodup_iff.2 h)
  refine ((pairwise_mergeSort_le key xs).and hne).imp ?_
  rintro a b ⟨hab, hab'⟩
  by_contra hlt
  exact hab' (String.le_antisymm hab (String.not_lt.1 hlt))

/-- Two increasing lists with the same members are the same list. -/
theorem eq_of_increasing (key : α → String) {xs ys : List α}
    (hx : xs.Pairwise fun a b => key a < key b) (hy : ys.Pairwise fun a b => key a < key b)
    (h : ∀ x, x ∈ xs ↔ x ∈ ys) : xs = ys := by
  have hne : ∀ {a b : α}, key a < key b → a ≠ b :=
    fun hab heq => String.lt_irrefl _ (heq ▸ hab)
  have hperm : xs.Perm ys := (List.perm_ext_iff_of_nodup (hx.imp hne) (hy.imp hne)).2 h
  exact hperm.eq_of_pairwise (fun a b _ _ hab hba => absurd hba (String.lt_asymm hab)) hx hy

end AddonLint.Text
