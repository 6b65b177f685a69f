import Mathlib.Tactic
import Mathlib.Data.Nat.Digits.Lemmas

/-! Numbers as characters in a base, over any characters: how a number is written, with
and without a fixed width, and what the digits at the front of a text are read as. -/
namespace DrMingw
namespace Numerals

/-- Characters for the values below `limit`, and the values characters are read with. -/
structure Digits (C : Type) where
  digit : ℕ → C
  value : C → Option ℕ
  limit : ℕ
  value_digit : ∀ d < limit, value (digit d) = some d

variable {C : Type} (D : Digits C)

/-- A number in a base, the most significant digit first. -/
def numeral (b n : ℕ) : List C :=
  if n = 0 then [D.digit 0] else ((b.digits n).map D.digit).reverse

/-- The last `width` digits of a number. -/
def padded (b : ℕ) : ℕ → ℕ → List C
  | 0, _ => []
  | width+1, n => padded b width (n/b) ++ [D.digit (n%b)]

/-- The digits at the front of a text, behind those already read. -/
def readDigits (b : ℕ) : ℕ → List C → ℕ
  | n, [] => n
  | n, c::cs =>
    match D.value c with
    | none => n
    | some d => if d < b then readDigits b (n*b+d) cs else n

/-- No digit of the base is in front. -/
def Ends (b : ℕ) (s : List C) : Prop := ∀ c ∈ s.head?, ∀ d, D.value c = some d → b ≤ d

variable {D} {b : ℕ}

@[simp] theorem padded_length (width n : ℕ) : (padded D b width n).length = width := by
  induction width generalizing n with
  | zero => rfl
  | succ width ih => simp [padded,ih]

@[simp] theorem ends_nil : Ends D b [] := by simp [Ends]

theorem readDigits_ends {s : List C} (h : Ends D b s) (n : ℕ) : readDigits D b n s = n := by
  cases s with
  | nil => rfl
  | cons c s =>
    rw [readDigits]
    cases hv : D.value c with
    | none => rfl
    | some d =>
      have hd : ¬d < b := by
        have hb := h c (by simp) d hv
        omega
      simp [hd]

theorem readDigits_digit {d : ℕ} (hd : d < b) (hb : b ≤ D.limit) (n : ℕ) (s : List C) :
    readDigits D b n (D.digit d :: s) = readDigits D b (n*b+d) s := by
  rw [readDigits,D.value_digit d (by omega)]
  simp [hd]

theorem readDigits_map {ds : List ℕ} (hds : ∀ d ∈ ds, d < b) (hb : b ≤ D.limit) (n : ℕ)
    (s : List C) :
    readDigits D b n ((ds.map D.digit).reverse ++ s) =
      readDigits D b (n * b^ds.length + Nat.ofDigits b ds) s := by
  induction ds using List.reverseRecOn generalizing n with
  | nil => simp
  | append_singleton ds d ih =>
    have hd : d < b := hds d (by simp)
    have hrest : ∀ e ∈ ds, e < b := fun e he => hds e (by simp [he])
    rw [List.map_append,List.reverse_append,List.map_singleton,List.reverse_singleton,
      List.singleton_append,List.cons_append,readDigits_digit hd hb,ih hrest,Nat.ofDigits_append,
      Nat.ofDigits_singleton,List.length_append,List.length_singleton,pow_succ]
    congr 1
    ring

/-- A numeral is read back, whatever stands behind it that is no digit. -/
theorem readDigits_numeral (hb : 1 < b) (hl : b ≤ D.limit) (n : ℕ) {s : List C}
    (hs : Ends D b s) : readDigits D b 0 (numeral D b n ++ s) = n := by
  by_cases hn : n = 0
  · rw [numeral,if_pos hn,List.singleton_append,readDigits_digit (by omega) hl,
      readDigits_ends hs,hn,Nat.zero_mul]
  · have hds : ∀ d ∈ b.digits n, d < b := fun d hd => Nat.digits_lt_base hb hd
    rw [numeral,if_neg hn,readDigits_map hds hl,readDigits_ends hs,Nat.ofDigits_digits]
    simp

/-- With a fixed width the number is read back up to a multiple of the highest power. -/
theorem readDigits_padded (hb : 0 < b) (hl : b ≤ D.limit) (width n m : ℕ) (s : List C) :
    readDigits D b m (padded D b width n ++ s) =
      readDigits D b (m * b^width + n % b^width) s := by
  induction width generalizing n s with
  | zero => simp [padded,Nat.mod_one]
  | succ width ih =>
    have hvalue : (m * b^width + n/b % b^width) * b + n%b = m * b^(width+1) + n % b^(width+1) := by
      rw [pow_succ',Nat.mod_mul]
      ring
    rw [padded,List.append_assoc,ih,List.singleton_append,
      readDigits_digit (Nat.mod_lt n hb) hl,hvalue]

theorem mem_numeral (hb : 1 < b) {n : ℕ} {c : C} (h : c ∈ numeral D b n) :
    ∃ d < b, c = D.digit d := by
  by_cases hn : n = 0
  · rw [numeral,if_pos hn,List.mem_singleton] at h
    exact ⟨0,by omega,h⟩
  · rw [numeral,if_neg hn,List.mem_reverse,List.mem_map] at h
    obtain ⟨d,hd,rfl⟩ := h
    exact ⟨d,Nat.digits_lt_base hb hd,rfl⟩

/-- Only zero is written with a zero in front. -/
theorem numeral_head (hb : 1 < b) {n : ℕ} (hn : 0 < n) :
    ∃ d rest, 0 < d ∧ d < b ∧ numeral D b n = D.digit d :: rest := by
  have hne : b.digits n ≠ [] := Nat.digits_ne_nil_iff_ne_zero.mpr (by omega)
  have hlast := Nat.getLast_digit_ne_zero b (m := n) (by omega)
  refine ⟨(b.digits n).getLast hne,((b.digits n).dropLast.map D.digit).reverse,
    Nat.pos_of_ne_zero hlast,Nat.digits_lt_base hb (List.getLast_mem hne),?_⟩
  rw [numeral,if_neg (by omega)]
  conv_lhs => rw [← List.dropLast_append_getLast hne]
  simp

theorem numeral_ne_nil (n : ℕ) : numeral D b n ≠ [] := by
  by_cases hn : n = 0
  · simp [numeral,hn]
  · simp [numeral,hn,Nat.digits_ne_nil_iff_ne_zero]

theorem numeral_length_le (hb : 1 < b) {n k : ℕ} (hn : n < b^k) (hk : 0 < k) :
    (numeral D b n).length ≤ k := by
  by_cases h0 : n = 0
  · rw [numeral,if_pos h0,List.length_singleton]
    exact hk
  · rw [numeral,if_neg h0,List.length_reverse,List.length_map]
    exact (Nat.digits_length_le_iff hb n).mpr hn

end Numerals
end DrMingw
