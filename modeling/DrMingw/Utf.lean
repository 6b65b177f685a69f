import Mathlib.Data.List.Basic
import Mathlib.Tactic

/-! UTF-16 and UTF-8: the characters that code units stand for, the bytes that encode
them, and where a sequence of code units can be split. -/
namespace DrMingw
namespace Utf

def isHigh (u : UInt16) : Bool := 0xD800 ≤ u && u < 0xDC00

def isLow (u : UInt16) : Bool := 0xDC00 ≤ u && u < 0xE000

/-- A code unit by itself; a surrogate becomes the replacement character. -/
def single (u : UInt16) : Char :=
  if isHigh u || isLow u then Char.ofNat 0xFFFD else Char.ofNat u.toNat

/-- A surrogate pair. -/
def pair (u v : UInt16) : Char :=
  Char.ofNat (0x10000 + (u.toNat - 0xD800) * 0x400 + (v.toNat - 0xDC00))

/-- The characters of a UTF-16 text. -/
def decode : List UInt16 → List Char
  | [] => []
  | [u] => [single u]
  | u::v::us =>
    if isHigh u ∧ isLow v then pair u v::decode us else single u::decode (v::us)

/-- The UTF-8 form of a UTF-16 text. -/
def utf8 (us : List UInt16) : List UInt8 := (decode us).flatMap String.utf8EncodeChar

/-- The first text ends with the first half of a surrogate pair, and the second goes on
with the second half. -/
def CutsPair (us vs : List UInt16) : Prop :=
  ∃ u ∈ us.getLast?, ∃ v ∈ vs.head?, isHigh u = true ∧ isLow v = true

variable {us vs ws : List UInt16} {u v : UInt16} {c : Char} {b : UInt8}

theorem decode_append (h : ¬CutsPair us vs) : decode (us ++ vs) = decode us ++ decode vs := by
  fun_induction decode us with
  | case1 => rfl
  | case2 u =>
    cases vs with
    | nil => rfl
    | cons v vs =>
      have hpair : ¬(isHigh u = true ∧ isLow v = true) := fun hp =>
        h ⟨u,rfl,v,rfl,hp⟩
      rw [List.singleton_append,decode,if_neg hpair]
      rfl
  | case3 u v us hp ih =>
    have hrest : ¬CutsPair us vs := by
      rintro ⟨x,hx,y,hy,hxy⟩
      refine h ⟨x,?_,y,hy,hxy⟩
      rw [List.getLast?_cons,List.getLast?_cons,Option.mem_def.mp hx]
      rfl
    rw [List.cons_append,List.cons_append,decode,if_pos hp,ih hrest]
    rfl
  | case4 u v us hp ih =>
    have hrest : ¬CutsPair (v::us) vs := by
      rintro ⟨x,hx,y,hy,hxy⟩
      refine h ⟨x,?_,y,hy,hxy⟩
      rw [List.getLast?_cons,Option.mem_def.mp hx]
      rfl
    rw [List.cons_append,List.cons_append,decode,if_neg hp,← List.cons_append,ih hrest]
    rfl

/-- A split at the end of a text stays one when the text is longer in front. -/
theorem CutsPair.append_left (h : CutsPair us vs) (ws : List UInt16) :
    CutsPair (ws ++ us) vs := by
  obtain ⟨u,hu,hv⟩ := h
  refine ⟨u,?_,hv⟩
  rw [Option.mem_def,List.getLast?_append,Option.mem_def.mp hu]
  rfl

theorem utf8EncodeChar_ascii (h : c.toNat < 128) :
    String.utf8EncodeChar c = [UInt8.ofNat c.toNat] :=
  if_pos (Nat.le_of_lt_succ h)

theorem ne_ofNat_of_le {n : ℕ} (hb : b.toNat < 128) (hn : 128 ≤ n) (hn' : n < 256) :
    b ≠ UInt8.ofNat n := by
  rintro rfl
  rw [UInt8.toNat_ofNat_of_lt' hn'] at hb
  omega

/-- An ASCII byte is the code of its character, and part of no other. -/
theorem mem_utf8EncodeChar_iff (hb : b.toNat < 128) :
    b ∈ String.utf8EncodeChar c ↔ c.toNat = b.toNat := by
  have hbyte {n : ℕ} (hn : 128 ≤ n) (hn' : n < 256) : ¬b = UInt8.ofNat n :=
    ne_ofNat_of_le hb hn hn'
  by_cases h : c.toNat < 128
  · rw [utf8EncodeChar_ascii h,List.mem_singleton,← UInt8.toNat_inj,
      UInt8.toNat_ofNat_of_lt' (by change c.toNat < 256; omega)]
    exact eq_comm
  · refine iff_of_false (fun hmem => ?_) fun he => h (he ▸ hb)
    have hle : ¬c.val.toNat ≤ 127 := fun hle => h (Nat.lt_succ_of_le hle)
    rw [String.utf8EncodeChar,if_neg hle] at hmem
    split at hmem
    · simp only [List.mem_cons,List.not_mem_nil,or_false] at hmem
      rcases hmem with hmem | hmem
      · exact hbyte (by omega) (by omega) hmem
      · exact hbyte (by omega) (by omega) hmem
    · split at hmem
      · simp only [List.mem_cons,List.not_mem_nil,or_false] at hmem
        rcases hmem with hmem | hmem | hmem
        · exact hbyte (by omega) (by omega) hmem
        · exact hbyte (by omega) (by omega) hmem
        · exact hbyte (by omega) (by omega) hmem
      · simp only [List.mem_cons,List.not_mem_nil,or_false] at hmem
        rcases hmem with hmem | hmem | hmem | hmem
        · exact hbyte (by omega) (by omega) hmem
        · exact hbyte (by omega) (by omega) hmem
        · exact hbyte (by omega) (by omega) hmem
        · exact hbyte (by omega) (by omega) hmem

theorem high_le (h : isHigh u = true) : 0xD800 ≤ u.toNat := by
  rw [isHigh,Bool.and_eq_true,decide_eq_true_eq,UInt16.le_iff_toNat_le] at h
  exact h.1

theorem low_le (h : isLow u = true) : 0xDC00 ≤ u.toNat := by
  rw [isLow,Bool.and_eq_true,decide_eq_true_eq,UInt16.le_iff_toNat_le] at h
  exact h.1

theorem toNat_ofNat_of_valid {n : ℕ} (h : n.isValidChar) : (Char.ofNat n).toNat = n := by
  rw [Char.ofNat,dif_pos h]
  rfl

theorem single_toNat (h : ¬(isHigh u || isLow u) = true) : (single u).toNat = u.toNat := by
  have hlt := u.toNat_lt
  have hvalid : u.toNat.isValidChar := by
    simp only [isHigh,isLow,Bool.or_eq_true,Bool.and_eq_true,decide_eq_true_eq,
      UInt16.le_iff_toNat_le,UInt16.lt_iff_toNat_lt] at h
    change _ < 0xD800 ∨ 0xDFFF < _ ∧ _ < 0x110000
    change ¬(0xD800 ≤ _ ∧ _ < 0xDC00 ∨ 0xDC00 ≤ _ ∧ _ < 0xE000) at h
    omega
  rw [single,if_neg h,toNat_ofNat_of_valid hvalid]

/-- What is below the surrogates stands for itself. -/
theorem single_toNat_eq_iff {n : ℕ} (hn : n < 0xD800) : (single u).toNat = n ↔ u.toNat = n := by
  by_cases h : (isHigh u || isLow u) = true
  · have hle : 0xD800 ≤ u.toNat := by
      simp only [isHigh,isLow,Bool.or_eq_true,Bool.and_eq_true,decide_eq_true_eq,
        UInt16.le_iff_toNat_le,UInt16.lt_iff_toNat_lt] at h
      change 0xD800 ≤ _ ∧ _ < 0xDC00 ∨ 0xDC00 ≤ _ ∧ _ < 0xE000 at h
      omega
    rw [single,if_pos h,toNat_ofNat_of_valid (by decide)]
    omega
  · rw [single_toNat h]

theorem pair_toNat (h : isHigh u = true ∧ isLow v = true) : 0x10000 ≤ (pair u v).toNat := by
  simp only [isHigh,isLow,Bool.and_eq_true,decide_eq_true_eq,
    UInt16.le_iff_toNat_le,UInt16.lt_iff_toNat_lt] at h
  change (0xD800 ≤ _ ∧ _ < 0xDC00) ∧ 0xDC00 ≤ _ ∧ _ < 0xE000 at h
  have hvalid : (0x10000 + (u.toNat - 0xD800) * 0x400 + (v.toNat - 0xDC00)).isValidChar := by
    change _ < 0xD800 ∨ 0xDFFF < _ ∧ _ < 0x110000
    omega
  rw [pair,toNat_ofNat_of_valid hvalid]
  omega

/-- A character below the surrogates is in the text as it is in the code units. -/
theorem mem_decode_iff {n : ℕ} (hn : n < 0xD800) (us : List UInt16) :
    (∃ c ∈ decode us, c.toNat = n) ↔ ∃ u ∈ us, u.toNat = n := by
  fun_induction decode us with
  | case1 => simp
  | case2 u => simp [single_toNat_eq_iff hn]
  | case3 u v us hp ih =>
    have hpair : (pair u v).toNat ≠ n := by
      have hle := pair_toNat hp
      omega
    have hu : u.toNat ≠ n := by
      have hle : 0xD800 ≤ u.toNat := high_le hp.1
      omega
    have hv : v.toNat ≠ n := by
      have hle : 0xDC00 ≤ v.toNat := low_le hp.2
      omega
    simp only [List.exists_mem_cons_iff,ih,hpair,hu,hv,false_or]
  | case4 u v us hp ih => simp only [List.exists_mem_cons_iff,ih,single_toNat_eq_iff hn]

/-- An ASCII byte is in the encoding as its character is in the text. -/
theorem mem_utf8_iff (hb : b.toNat < 128) : b ∈ utf8 us ↔ ∃ u ∈ us, u.toNat = b.toNat := by
  rw [utf8,List.mem_flatMap,← mem_decode_iff (by omega)]
  simp only [mem_utf8EncodeChar_iff hb]

theorem utf8_append (h : ¬CutsPair us vs) : utf8 (us ++ vs) = utf8 us ++ utf8 vs := by
  rw [utf8,decode_append h,List.flatMap_append]
  rfl

end Utf
end DrMingw
