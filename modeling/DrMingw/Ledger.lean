import Mathlib.Tactic

/-! Ledgers of acquired and released resources: what a history still holds, and
when everything it acquired has been given back exactly once. -/
namespace DrMingw

/-- One entry of a resource history. -/
inductive Deed (R : Type)
  | acquire (r : R)
  | release (r : R)
  deriving DecidableEq

namespace Ledger

variable {R : Type} [DecidableEq R]

def acquired (l : List (Deed R)) (r : R) : ℕ := l.count (.acquire r)

def released (l : List (Deed R)) (r : R) : ℕ := l.count (.release r)

/-- Every resource is acquired at most once, and what was acquired has been
released exactly once. -/
def Settled (l : List (Deed R)) : Prop :=
  ∀ r, acquired l r ≤ 1 ∧ released l r = acquired l r

/-- No resource is acquired twice. -/
def Distinct (l : List (Deed R)) : Prop := ∀ r, acquired l r ≤ 1

/-- After the history `l` exactly the resources in `held` are still to be released. -/
def Holds (l : List (Deed R)) (held : List R) : Prop :=
  ∀ r, acquired l r = released l r + held.count r

@[simp] theorem acquired_nil (r : R) : acquired [] r = 0 := rfl
@[simp] theorem acquired_append (l m : List (Deed R)) (r : R) :
    acquired (l ++ m) r = acquired l r + acquired m r := by
  simp [acquired]

@[simp] theorem released_append (l m : List (Deed R)) (r : R) :
    released (l ++ m) r = released l r + released m r := by
  simp [released]

@[simp] theorem acquired_acquire (r s : R) :
    acquired [.acquire r] s = if r = s then 1 else 0 := by
  simp [acquired,List.count_cons]

@[simp] theorem released_acquire (r s : R) : released [.acquire r] s = 0 := by
  simp [released]

@[simp] theorem acquired_release (r s : R) : acquired [.release r] s = 0 := by
  simp [acquired]

@[simp] theorem released_release (r s : R) :
    released [.release r] s = if r = s then 1 else 0 := by
  simp [released,List.count_cons]

theorem holds_nil : Holds ([] : List (Deed R)) [] := fun _ => rfl

theorem Holds.perm {l : List (Deed R)} {held held' : List R} (h : Holds l held)
    (hp : held.Perm held') : Holds l held' := fun r => by
  rw [h r,hp.count_eq]

theorem Holds.acquire {l : List (Deed R)} {held : List R} (h : Holds l held) (r : R) :
    Holds (l ++ [.acquire r]) (r::held) := fun s => by
  simp only [acquired_append,acquired_acquire,released_append,released_acquire,h s,
    List.count_cons,beq_iff_eq]
  omega

theorem Holds.release {l : List (Deed R)} {held : List R} {r : R} (h : Holds l (r::held)) :
    Holds (l ++ [.release r]) held := fun s => by
  have hs := h s
  simp only [List.count_cons,beq_iff_eq] at hs
  simp only [acquired_append,acquired_release,released_append,released_release,hs]
  omega

theorem Distinct.acquire {l : List (Deed R)} (h : Distinct l) {r : R} (hr : acquired l r = 0) :
    Distinct (l ++ [.acquire r]) := fun s => by
  have hs := h s
  simp only [acquired_append,acquired_acquire]
  split_ifs with he
  · subst he; omega
  · omega

theorem Distinct.release {l : List (Deed R)} (h : Distinct l) (r : R) :
    Distinct (l ++ [.release r]) := fun s => by
  simpa using h s

/-- Among the resources of a kind, everything has been given back exactly when none
of the kind is held any more. -/
theorem settledOn_iff {l : List (Deed R)} {held : List R} (hd : Distinct l) (h : Holds l held)
    (K : R → Prop) :
    (∀ r, K r → acquired l r ≤ 1 ∧ released l r = acquired l r) ↔ ∀ r ∈ held, ¬K r := by
  constructor
  · intro hs r hr hk
    have hc : 0 < held.count r := List.count_pos_iff.mpr hr
    have h₁ := h r
    have h₂ := (hs r hk).2
    omega
  · intro hn r hk
    have hc : held.count r = 0 := List.count_eq_zero.mpr fun hr => hn r hr hk
    have h₁ := h r
    exact ⟨hd r,by omega⟩

/-- A history is settled exactly when nothing is held any more. -/
theorem settled_iff {l : List (Deed R)} {held : List R} (hd : Distinct l) (h : Holds l held) :
    Settled l ↔ held = [] := by
  have hh := settledOn_iff hd h fun _ => True
  simpa [Settled,List.eq_nil_iff_forall_not_mem] using hh

/-- What is still held has not been released. -/
theorem Holds.released_eq_zero {l : List (Deed R)} {held : List R} (hd : Distinct l)
    (h : Holds l held) {r : R} (hr : r ∈ held) : released l r = 0 := by
  have hc : 0 < held.count r := List.count_pos_iff.mpr hr
  have h₁ := h r
  have h₂ := hd r
  omega

/-- Nothing is acquired twice or released more often than acquired, and exactly the
resources in `held` have not been released. -/
structure HoldsExactly (l : List (Deed R)) (held : List R) : Prop where
  nodup : held.Nodup
  once : ∀ r, released l r ≤ acquired l r ∧ acquired l r ≤ 1
  mem_iff : ∀ r, r ∈ held ↔ released l r < acquired l r

theorem Holds.exactly {l : List (Deed R)} {held : List R} (hd : Distinct l) (h : Holds l held) :
    HoldsExactly l held where
  nodup := List.nodup_iff_count_le_one.mpr fun r => by
    have h₁ := h r
    have h₂ := hd r
    omega
  once r := ⟨(h r) ▸ Nat.le_add_right _ _,hd r⟩
  mem_iff r := by
    have h₁ := h r
    rw [← List.count_pos_iff]
    omega

end Ledger
end DrMingw
