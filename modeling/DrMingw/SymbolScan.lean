import DrMingw.PeImage
import DrMingw.Walk

/-! The course of the symbol search: the records the loop of `pe_find_symbol` comes
by, for every content of the table, and how it ends. -/
namespace DrMingw
namespace PeImage

variable (b : Build) (image : Image) (base Addr : DWORD64)

def NumberOfAuxSymbols (i : DWORD) : CHAR := byteAt image (symbol b image i + 17)

/-- The index at the next turn of the loop. -/
def nextSymbol (i : DWORD) : DWORD := i + (NumberOfAuxSymbols b image i).toUInt32 + 1

/-- The loop gets to its test with this index and the nearest symbol so far. -/
inductive Reached : DWORD → Nearest → Prop
  | start : Reached 0 {}
  | next {i : DWORD} {best : Nearest} (h : Reached i best) (hi : i < NumberOfSymbols image)
      (hd : (considerSymbol b image base Addr i best).Displacement ≠ 0) :
      Reached (nextSymbol b image i) (considerSymbol b image base Addr i best)

/-- The loop reads the record at the index. -/
def ReadsSymbol (i : DWORD) : Prop :=
  i < NumberOfSymbols image ∧ ∃ best, Reached b image base Addr i best

/-- The loop goes on from the record at the index. -/
def PassesSymbol (i : DWORD) : Prop :=
  i < NumberOfSymbols image ∧ ∃ best, Reached b image base Addr i best ∧
    (considerSymbol b image base Addr i best).Displacement ≠ 0

/-- The record behind one and its auxiliary records, however far that is. -/
def nextRecord (n : ℕ) : ℕ := n + (NumberOfAuxSymbols b image (UInt32.ofNat n)).toNat + 1

/-- A record of the table that is no auxiliary record. -/
def IsPrimary (i : DWORD) : Prop :=
  i < NumberOfSymbols image ∧ Walk.Visits (nextRecord b image) i.toNat

/-- A function whose name does not start with a dot. -/
def IsNamedFunction (i : DWORD) : Prop :=
  ISFCN (wordAt image (symbol b image i + 14)) = true ∧ (symbolName b image i).head? ≠ some 46

instance (i : DWORD) : Decidable (IsNamedFunction b image i) :=
  inferInstanceAs (Decidable (_ ∧ _))

/-- The record is one the search need not go beyond. -/
def Hits (i : DWORD) : Prop := IsNamedFunction b image i ∧ symbolAddr b image base i = Addr

variable {b image base Addr} {i j : DWORD} {best last : Nearest} {fuel n : ℕ}

theorem nextSymbol_ofNat (b : Build) (image : Image) (n : ℕ) :
    nextSymbol b image (UInt32.ofNat n) = UInt32.ofNat (nextRecord b image n) := by
  have haux : (NumberOfAuxSymbols b image (UInt32.ofNat n)).toUInt32 =
      UInt32.ofNat (NumberOfAuxSymbols b image (UInt32.ofNat n)).toNat := by
    apply UInt32.toNat.inj
    have hlt := (NumberOfAuxSymbols b image (UInt32.ofNat n)).toNat_lt
    rw [UInt8.toNat_toUInt32,UInt32.toNat_ofNat_of_lt' (by simp only [UInt32.size]; omega)]
  rw [nextSymbol,nextRecord,UInt32.ofNat_add,UInt32.ofNat_add,← haux]
  rfl

theorem nextSymbol_eq (i : DWORD) :
    nextSymbol b image i = UInt32.ofNat (nextRecord b image i.toNat) := by
  rw [← nextSymbol_ofNat,UInt32.ofNat_toNat]

theorem lt_nextRecord (b : Build) (image : Image) (n : ℕ) : n < nextRecord b image n := by
  simp only [nextRecord]
  omega

theorem nextRecord_le (b : Build) (image : Image) (n : ℕ) : nextRecord b image n ≤ n + 256 := by
  have hlt := (NumberOfAuxSymbols b image (UInt32.ofNat n)).toNat_lt
  simp only [nextRecord]
  omega

/-- The index advances as it should as long as it does not wrap. -/
theorem toNat_nextSymbol (h : nextRecord b image i.toNat < 2^32) :
    (nextSymbol b image i).toNat = nextRecord b image i.toNat := by
  rw [nextSymbol_eq,UInt32.toNat_ofNat_of_lt' h]

/-- A displacement of 0 is found at a hit only. -/
theorem considerSymbol_eq_zero (hbest : best.Displacement ≠ 0) :
    (considerSymbol b image base Addr i best).Displacement = 0 ↔ Hits b image base Addr i := by
  have hpos : 0 < best.Displacement := UInt64.pos_iff_ne_zero.mpr hbest
  simp only [considerSymbol,Hits,IsNamedFunction]
  by_cases hf : ISFCN (wordAt image (symbol b image i + 14)) = true
  · rw [if_pos hf]
    split
    · next h =>
      rw [sub_eq_zero]
      exact ⟨fun he => ⟨⟨hf,h.2.1⟩,he.symm⟩,fun hh => hh.2.symm⟩
    · next h =>
      refine ⟨fun hz => absurd hz hbest,fun hh => absurd ?_ h⟩
      rw [hh.2,UInt64.sub_self]
      exact ⟨UInt64.le_refl _,hh.1.2,hpos⟩
  · rw [if_neg hf]
    exact ⟨fun hz => absurd hz hbest,fun hh => absurd hh.1.1 hf⟩

/-- A scan that returns does so behind the table or at a hit. -/
theorem scanSymbols_ends (hr : Reached b image base Addr i best)
    (h : scanSymbols b image base Addr fuel i best = some last) :
    ∃ j best', Reached b image base Addr j best' ∧
      ((¬j < NumberOfSymbols image ∧ last = best') ∨
        (j < NumberOfSymbols image ∧ last = considerSymbol b image base Addr j best' ∧
          last.Displacement = 0)) := by
  induction fuel generalizing i best with
  | zero => simp [scanSymbols] at h
  | succ fuel ih =>
    simp only [scanSymbols] at h
    split at h
    · next hi =>
      split at h
      · next hz =>
        obtain rfl := Option.some.inj h
        exact ⟨i,best,hr,.inr ⟨hi,rfl,hz⟩⟩
      · next hd => exact ih (hr.next hi hd) h
    · next hi =>
      obtain rfl := Option.some.inj h
      exact ⟨i,best,hr,.inl ⟨hi,rfl⟩⟩

/-- If the index never wraps, the scan returns. -/
theorem scanSymbols_isSome {fuel : ℕ}
    (hw : ∀ i, PassesSymbol b image base Addr i → nextRecord b image i.toNat < 2^32)
    (hr : Reached b image base Addr i best)
    (hfuel : (NumberOfSymbols image).toNat < fuel + i.toNat) (hpos : 0 < fuel) :
    (scanSymbols b image base Addr fuel i best).isSome = true := by
  induction fuel generalizing i best with
  | zero => omega
  | succ fuel ih =>
    simp only [scanSymbols]
    split
    · next hi =>
      split
      · rfl
      · next hd =>
        have hnext : (i + (byteAt image (symbol b image i + 17)).toUInt32 + 1).toNat =
            nextRecord b image i.toNat := toNat_nextSymbol (hw i ⟨hi,best,hr,hd⟩)
        have hlt := lt_nextRecord b image i.toNat
        have hi' := UInt32.lt_iff_toNat_lt.mp hi
        exact ih (hr.next hi hd) (by rw [hnext]; omega) (by omega)
    · rfl

/-- As long as nothing hits, the loop comes by every primary record. -/
theorem reached_of_primary
    (hno : ∀ j, IsPrimary b image j → j ≤ i → ¬Hits b image base Addr j)
    (hi : IsPrimary b image i) :
    ∃ best, Reached b image base Addr i best ∧ best.Displacement ≠ 0 := by
  have hwalk : i.toNat ≤ i.toNat → ∃ best,
      Reached b image base Addr (UInt32.ofNat i.toNat) best ∧ best.Displacement ≠ 0 := by
    refine Walk.Visits.induction (P:=fun n => n ≤ i.toNat → ∃ best,
      Reached b image base Addr (UInt32.ofNat n) best ∧ best.Displacement ≠ 0) ?_ ?_ hi.2
    · exact fun _ => ⟨{},.start,by decide⟩
    · intro n hn ih hle
      have hlt := lt_nextRecord b image n
      have hin := i.toNat_lt
      obtain ⟨best,hr,hd⟩ := ih (by omega)
      have hnat : (UInt32.ofNat n).toNat = n := UInt32.toNat_ofNat_of_lt' (by
        simp only [UInt32.size]; omega)
      have hni : UInt32.ofNat n < i := by rw [UInt32.lt_iff_toNat_lt,hnat]; omega
      have hnN : UInt32.ofNat n < NumberOfSymbols image := UInt32.lt_trans hni hi.1
      have hd' : (considerSymbol b image base Addr (UInt32.ofNat n) best).Displacement ≠ 0 := by
        rw [ne_eq,considerSymbol_eq_zero hd]
        exact hno _ ⟨hnN,by rwa [hnat]⟩ (UInt32.le_of_lt hni)
      exact ⟨_,nextSymbol_ofNat b image n ▸ hr.next hnN hd',hd'⟩
  simpa using hwalk le_rfl

/-- The loop goes on from a primary record if there is no hit up to there. -/
theorem passes_of_primary
    (hno : ∀ j, IsPrimary b image j → j ≤ i → ¬Hits b image base Addr j)
    (hi : IsPrimary b image i) : PassesSymbol b image base Addr i := by
  obtain ⟨best,hr,hd⟩ := reached_of_primary hno hi
  refine ⟨hi.1,best,hr,?_⟩
  rw [ne_eq,considerSymbol_eq_zero hd]
  exact hno i hi (UInt32.le_refl i)

/-- A scan that is led back to a primary record before any hit goes on for ever. -/
theorem scanSymbols_cycle (hno : ∀ j, IsPrimary b image j → j ≤ i → ¬Hits b image base Addr j)
    (hi : IsPrimary b image i) (hback : IsPrimary b image (nextSymbol b image i))
    (hle : nextSymbol b image i ≤ i) (hj : IsPrimary b image j) (hji : j ≤ i)
    (hd : best.Displacement ≠ 0) : scanSymbols b image base Addr fuel j best = none := by
  induction fuel generalizing j best with
  | zero => rfl
  | succ fuel ih =>
    have hd' : (considerSymbol b image base Addr j best).Displacement ≠ 0 := by
      rw [ne_eq,considerSymbol_eq_zero hd]
      exact hno j hj hji
    simp only [scanSymbols,if_pos hj.1,if_neg hd']
    rw [UInt32.le_iff_toNat_le] at hji
    rcases hji.lt_or_eq with hlt | heq
    · have hnext := hj.2.next_le (lt_nextRecord b image) hi.2 hlt
      have hin := i.toNat_lt
      have hnat : (nextSymbol b image j).toNat = nextRecord b image j.toNat :=
        toNat_nextSymbol (by omega)
      have hnle : nextSymbol b image j ≤ i := by rw [UInt32.le_iff_toNat_le,hnat]; exact hnext
      exact ih ⟨UInt32.lt_of_le_of_lt hnle hi.1,hnat ▸ hj.2.next⟩ hnle hd'
    · obtain rfl : j = i := UInt32.toNat.inj heq
      exact ih hback hle hd'

/-- The size of the file is a `SIZE_T`, as that of a mapped file is. -/
def FitsView (b : Build) (image : Image) : Prop := b.win64 = true ∨ image.length < 2^32

theorem fileSize_of_fitsView (h : FitsView b image) : fileSize b image = some image.length := by
  simp only [fileSize]
  by_cases hw : b.win64 = true
  · rw [if_pos hw]
  · have hlt : image.length < 2^32 := h.resolve_left hw
    rw [if_neg hw,if_pos (.inl hlt),Nat.mod_eq_of_lt hlt]

end PeImage
end DrMingw
