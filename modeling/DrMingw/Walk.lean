import Mathlib.Order.Monotone.Basic
import Mathlib.Order.Interval.Set.Defs
import Mathlib.Order.Lattice

/-! Walks over the natural numbers by a map that always moves forward, and the
running minimum of a key along the way: the first member with the least key. -/
namespace DrMingw
namespace Walk

variable {f : ℕ → ℕ} {i j k : ℕ}

/-- The walk from 0 comes by `i`. -/
def Visits (f : ℕ → ℕ) (i : ℕ) : Prop := ∃ n, f^[n] 0 = i

theorem visits_zero : Visits f 0 := ⟨0,rfl⟩

theorem Visits.next (h : Visits f i) : Visits f (f i) := by
  obtain ⟨n,rfl⟩ := h
  exact ⟨n + 1,Function.iterate_succ_apply' f n 0⟩

/-- What holds at 0 and at each next place holds wherever the walk comes by. -/
theorem Visits.induction {P : ℕ → Prop} (h₀ : P 0) (hs : ∀ i, Visits f i → P i → P (f i))
    (h : Visits f i) : P i := by
  obtain ⟨n,rfl⟩ := h
  induction n with
  | zero => exact h₀
  | succ n ih =>
    rw [Function.iterate_succ_apply']
    exact hs _ ⟨n,rfl⟩ ih

/-- Between a place and the next one the walk visits nothing. -/
theorem Visits.next_le (hf : ∀ i, i < f i) (hi : Visits f i) (hj : Visits f j) (hij : i < j) :
    f i ≤ j := by
  obtain ⟨m,rfl⟩ := hi
  obtain ⟨n,rfl⟩ := hj
  have hmono : StrictMono fun n => f^[n] 0 := strictMono_nat_of_lt_succ fun n => by
    rw [Function.iterate_succ_apply']
    exact hf _
  have hmn : m + 1 ≤ n := hmono.lt_iff_lt.mp hij
  calc f (f^[m] 0) = f^[m + 1] 0 := (Function.iterate_succ_apply' f m 0).symm
    _ ≤ f^[n] 0 := hmono.monotone hmn

/-- The walk comes by every place it takes single steps to. -/
theorem Visits.run (h : Visits f i) (hij : i ≤ j) (hone : ∀ n, i ≤ n → n < j → f n = n + 1) :
    Visits f j := by
  induction j, hij using Nat.le_induction with
  | base => exact h
  | succ j hij ih =>
    rw [← hone j hij (Nat.lt_succ_self j)]
    exact (ih fun n hn hlt => hone n hn (Nat.lt_succ_of_lt hlt)).next

/-- With strides of at most `s`, each stretch of `s` places is entered. -/
theorem exists_visits (hf : ∀ i, i < f i) {s : ℕ} (hs : ∀ i, f i ≤ i + s) (k : ℕ) :
    ∃ i, Visits f i ∧ k ≤ i ∧ i ≤ k + s := by
  induction k with
  | zero => exact ⟨0,visits_zero,Nat.le_refl _,Nat.zero_le _⟩
  | succ k ih =>
    obtain ⟨i,hi,hki,hik⟩ := ih
    by_cases hlt : k < i
    · exact ⟨i,hi,hlt,by omega⟩
    · have h₁ := hf i
      have h₂ := hs i
      exact ⟨f i,hi.next,by omega,by omega⟩

end Walk

variable {ι K : Type*} [LinearOrder ι] [LinearOrder K] {s : Set ι} {key : ι → K} {c n n' : ι}

/-- `c` is the first of the members with the least key. -/
structure FirstLeast (s : Set ι) (key : ι → K) (c : ι) : Prop where
  mem : c ∈ s
  least : ∀ j ∈ s, key c ≤ key j
  first : ∀ j ∈ s, key j ≤ key c → c ≤ j

/-- The outcome of going through the members below `n`. -/
def RunningLeast (s : Set ι) (key : ι → K) (n : ι) : Option ι → Prop
  | none => ∀ j ∈ s, ¬j < n
  | some c => FirstLeast {j ∈ s | j < n} key c

variable {o : Option ι}

/-- A stretch without members changes nothing. -/
theorem RunningLeast.skip (h : RunningLeast s key n o) (hn : ∀ j ∈ s, j < n' → j < n)
    (hle : n ≤ n') : RunningLeast s key n' o := by
  cases o with
  | none => exact fun j hj hlt => h j hj (hn j hj hlt)
  | some c =>
    exact ⟨⟨h.mem.1,lt_of_lt_of_le h.mem.2 hle⟩,fun j hj => h.least j ⟨hj.1,hn j hj.1 hj.2⟩,
      fun j hj => h.first j ⟨hj.1,hn j hj.1 hj.2⟩⟩

/-- A member that is not smaller does not replace the one found. -/
theorem RunningLeast.keep (h : RunningLeast s key n (some c)) (hkey : key c ≤ key n)
    (hn : ∀ j ∈ s, j < n' → j ≤ n) (hlt : n < n') : RunningLeast s key n' (some c) := by
  refine ⟨⟨h.mem.1,h.mem.2.trans hlt⟩,fun j hj => ?_,fun j hj hle => ?_⟩
  · rcases (hn j hj.1 hj.2).lt_or_eq with hjn | rfl
    · exact h.least j ⟨hj.1,hjn⟩
    · exact hkey
  · rcases (hn j hj.1 hj.2).lt_or_eq with hjn | rfl
    · exact h.first j ⟨hj.1,hjn⟩ hle
    · exact h.mem.2.le

/-- A member smaller than the one found, or the first one at all, replaces it. -/
theorem RunningLeast.replace (h : RunningLeast s key n o) (hmem : n ∈ s)
    (hkey : ∀ c ∈ o, key n < key c) (hn : ∀ j ∈ s, j < n' → j ≤ n) (hlt : n < n') :
    RunningLeast s key n' (some n) := by
  have hbefore : ∀ j ∈ s, j < n → key n < key j := by
    intro j hj hjn
    cases o with
    | none => exact absurd hjn (h j hj)
    | some c => exact (hkey c rfl).trans_le (h.least j ⟨hj,hjn⟩)
  refine ⟨⟨hmem,hlt⟩,fun j hj => ?_,fun j hj hle => ?_⟩
  · rcases (hn j hj.1 hj.2).lt_or_eq with hjn | rfl
    · exact (hbefore j hj.1 hjn).le
    · exact le_rfl
  · exact not_lt.mp fun hjn => absurd hle (hbefore j hj.1 hjn).not_ge

/-- What is no member, or no smaller one, leaves the outcome as it is. -/
theorem RunningLeast.stay (h : RunningLeast s key n o)
    (hstay : ¬(n ∈ s ∧ ∀ c ∈ o, key n < key c)) (hn : ∀ j ∈ s, j < n' → j ≤ n) (hlt : n < n') :
    RunningLeast s key n' o := by
  by_cases hmem : n ∈ s
  · cases o with
    | none => exact absurd ⟨hmem,by simp⟩ hstay
    | some c => exact h.keep (not_lt.mp fun hc => hstay ⟨hmem,by simpa using hc⟩) hn hlt
  · refine h.skip (fun j hj hjn => (hn j hj hjn).lt_of_ne ?_) hlt.le
    rintro rfl
    exact hmem hj

/-- Nothing is smaller than the least key there can be, so the rest need not be gone through. -/
theorem RunningLeast.firstLeast (h : RunningLeast s key n (some c))
    (hend : (∀ j ∈ s, j < n) ∨ ∀ j ∈ s, key c ≤ key j) : FirstLeast s key c := by
  have hleast : ∀ j ∈ s, key c ≤ key j := by
    rcases hend with hall | hmin
    · exact fun j hj => h.least j ⟨hj,hall j hj⟩
    · exact hmin
  refine ⟨h.mem.1,hleast,fun j hj hle => not_lt.mp fun hjc => ?_⟩
  exact absurd hjc (h.first j ⟨hj,hjc.trans h.mem.2⟩ hle).not_gt

/-- The first of the least has a property exactly if each member without it has one with
it in front, by its key or else by its place. -/
theorem FirstLeast.prop_iff {P : ι → Prop} (h : FirstLeast s key c) :
    P c ↔ ∀ i ∈ s, ¬P i → ∃ j ∈ s, P j ∧ (key j < key i ∨ key j = key i ∧ j < i) := by
  constructor
  · intro hc i hi hP
    refine ⟨c,h.mem,hc,?_⟩
    rcases (h.least i hi).lt_or_eq with hlt | heq
    · exact .inl hlt
    · refine .inr ⟨heq,(h.first i hi heq.ge).lt_of_ne ?_⟩
      rintro rfl
      exact hP hc
  · intro hall
    by_contra hc
    obtain ⟨j,hj,-,hlt | ⟨heq,hjc⟩⟩ := hall c h.mem hc
    · exact absurd (h.least j hj) hlt.not_ge
    · exact absurd (h.first j hj heq.le) hjc.not_ge

end DrMingw
