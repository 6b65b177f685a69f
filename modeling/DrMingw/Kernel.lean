import DrMingw.Ledger
import DrMingw.PeImage

/-! The system resources `MgwHelp` takes and gives back: memory blocks, file
handles, file mappings and mapped views, each acquired by a call that may fail. -/
namespace DrMingw
open PeImage

/-- The identity of a file, whatever handle or path it is opened by. -/
abbrev FileId := ℕ

inductive ResourceKind
  | memory
  | file
  | mapping
  | view
  deriving DecidableEq

/-- A block, handle or view, numbered by the attempt that acquired it. -/
structure Resource where
  kind : ResourceKind
  serial : ℕ
  deriving DecidableEq

/-- The calls that acquire a resource. -/
inductive Attempt
  | calloc
  | CreateFileW (path : List WCHAR)
  | CreateFileMapping (file : FileId)
  | MapViewOfFile (file : FileId)

def Attempt.kind : Attempt → ResourceKind
  | .calloc => .memory
  | .CreateFileW _ => .file
  | .CreateFileMapping _ => .mapping
  | .MapViewOfFile _ => .view

/-- The files and the outcome of each attempt, as one call of `MgwHelp` finds them. -/
structure FileSystem where
  /-- Whether an attempt succeeds; attempts are numbered through the run. -/
  succeeds : Attempt → ℕ → Bool
  /-- The file behind a handle the caller has opened. -/
  fileOf : HANDLE → FileId
  /-- The file a path names. -/
  fileAt : List WCHAR → FileId
  contents : FileId → Image
  /-- Whether `dwarf_object_init_b` finds debug information in the sections of a file. -/
  dwarf_object_init_b : FileId → ℕ → Bool

structure Kernel where
  /-- Attempts made so far. -/
  clock : ℕ := 0
  log : List (Deed Resource) := []

namespace Kernel

def acquire (w : FileSystem) (a : Attempt) (k : Kernel) : Option Resource × Kernel :=
  if w.succeeds a k.clock then
    let r : Resource := ⟨a.kind,k.clock⟩
    (some r,⟨k.clock + 1,k.log ++ [.acquire r]⟩)
  else (none,{ k with clock := k.clock + 1 })

/-- `free`, `CloseHandle` or `UnmapViewOfFile`. -/
def release (r : Resource) (k : Kernel) : Kernel := { k with log := k.log ++ [.release r] }

/-- `dwarf_object_init_b`, an attempt that acquires nothing. -/
def initObject (w : FileSystem) (file : FileId) (k : Kernel) : Bool × Kernel :=
  (w.dwarf_object_init_b file k.clock,{ k with clock := k.clock + 1 })

end Kernel

/-- Exactly the resources in `held` are still to be given back. -/
structure Owns (k : Kernel) (held : List Resource) : Prop where
  distinct : Ledger.Distinct k.log
  holds : Ledger.Holds k.log held
  fresh : ∀ r : Resource, k.clock ≤ r.serial → Ledger.acquired k.log r = 0

variable {w : FileSystem} {a : Attempt} {k k' : Kernel} {held held' : List Resource}
  {r : Resource}

theorem owns_nil : Owns {} [] := ⟨fun _ => by simp,Ledger.holds_nil,fun _ _ => rfl⟩

theorem Owns.perm (h : Owns k held) (hp : held.Perm held') : Owns k held' :=
  ⟨h.distinct,h.holds.perm hp,h.fresh⟩

theorem Owns.acquired (h : Owns k held) (ha : k.acquire w a = (some r,k')) :
    Owns k' (r::held) := by
  simp only [Kernel.acquire] at ha
  split at ha
  · simp only [Prod.mk.injEq,Option.some.injEq] at ha
    obtain ⟨rfl,rfl⟩ := ha
    refine ⟨h.distinct.acquire (h.fresh _ (Nat.le_refl _)),h.holds.acquire _,fun r hr => ?_⟩
    have hne : (⟨a.kind,k.clock⟩ : Resource) ≠ r := by
      rintro rfl
      exact absurd hr (Nat.not_succ_le_self _)
    have hfresh := h.fresh r (Nat.le_of_succ_le hr)
    simp [hfresh,hne]
  · simp at ha

theorem acquire_kind (ha : k.acquire w a = (some r,k')) :
    r.kind = a.kind ∧ w.succeeds a k.clock = true ∧ k'.clock = k.clock + 1 := by
  simp only [Kernel.acquire] at ha
  split at ha
  · next hs =>
    simp only [Prod.mk.injEq,Option.some.injEq] at ha
    obtain ⟨rfl,rfl⟩ := ha
    exact ⟨rfl,hs,rfl⟩
  · simp at ha

theorem acquire_none (ha : k.acquire w a = (none,k')) : w.succeeds a k.clock = false := by
  simp only [Kernel.acquire] at ha
  split at ha
  · simp at ha
  · next hs => simpa using hs

theorem Owns.refused (h : Owns k held) (ha : k.acquire w a = (none,k')) : Owns k' held := by
  simp only [Kernel.acquire] at ha
  split at ha
  · simp at ha
  · obtain ⟨-,rfl⟩ := Prod.mk.inj ha
    exact ⟨h.distinct,h.holds,fun r hr => h.fresh r (Nat.le_of_succ_le hr)⟩

theorem Owns.release (h : Owns k (r::held)) : Owns (k.release r) held := by
  refine ⟨h.distinct.release r,h.holds.release,fun s hs => ?_⟩
  have hfresh := h.fresh s hs
  simp [Kernel.release,hfresh]

theorem Owns.initObject (h : Owns k held) {file : FileId} {found : Bool}
    (hi : k.initObject w file = (found,k')) : Owns k' held := by
  obtain ⟨-,rfl⟩ := Prod.mk.inj hi
  exact ⟨h.distinct,h.holds,fun r hr => h.fresh r (Nat.le_of_succ_le hr)⟩

/-- What is held has not been given back. -/
theorem Owns.not_released (h : Owns k held) (hr : r ∈ held) : Ledger.released k.log r = 0 :=
  h.holds.released_eq_zero h.distinct hr

/-- Every outcome depends on the arguments of its call only. -/
def FileSystem.Steady (w : FileSystem) : Prop :=
  (∀ a m n, w.succeeds a m = w.succeeds a n) ∧
    ∀ file m n, w.dwarf_object_init_b file m = w.dwarf_object_init_b file n

/-- In a steady system a call succeeds always or never. -/
theorem acquire_steady (hw : w.Steady) (a : Attempt) (k k' : Kernel) :
    (∃ k₁ k₁', k.acquire w a = (none,k₁) ∧ k'.acquire w a = (none,k₁')) ∨
    ∃ x k₁ x' k₁', k.acquire w a = (some x,k₁) ∧ k'.acquire w a = (some x',k₁') := by
  simp only [Kernel.acquire,hw.1 a k.clock k'.clock]
  split
  · exact .inr ⟨_,_,_,_,rfl,rfl⟩
  · exact .inl ⟨_,_,rfl,rfl⟩

end DrMingw
