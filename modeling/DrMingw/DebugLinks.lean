import DrMingw.Chain
import DrMingw.RegistryInvariant
import DrMingw.SymbolScan

/-! Chains of debuglinks: each debug file that is opened may name a further one, and
`mgwhelp_dwarf_pe_init` calls itself for it. -/
namespace DrMingw
open PeImage StateTransition

/-- The files of a system as they stay during a run. -/
structure FixedFiles where
  /-- Whether `CreateFileW` opens a path. -/
  opens : List WCHAR → Bool
  /-- A path has at most 32767 characters. -/
  finite : {path | opens path = true}.Finite
  fileAt : List WCHAR → FileId
  contents : FileId → Image

/-- An open file, with the path it was opened by. -/
structure DebugFile where
  hFile : FileId
  image : List WCHAR

namespace FixedFiles

instance (b : Build) (image : Image) : Decidable (FitsView b image) :=
  inferInstanceAs (Decidable (_ ∨ _))

/-- The files stay as they are; other calls may fail at any time. A view that could be
mapped fits in the address space. -/
structure Within (files : FixedFiles) (b : Build) (w : FileSystem) : Prop where
  opens : ∀ path n, w.succeeds (.CreateFileW path) n = files.opens path
  fits : ∀ hFile n, w.succeeds (.MapViewOfFile hFile) n = true → FitsView b (files.contents hFile)
  fileAt : w.fileAt = files.fileAt
  contents : w.contents = files.contents

/-- The file a nested call gets, if no call of the system fails that can succeed. -/
def nextDebugFile (files : FixedFiles) (b : Build) (cp : CodePages) (f : DebugFile) :
    Option DebugFile :=
  let contents := files.contents f.hFile
  if FitsView b contents ∧ symbolTableExtendsBeyond b contents contents.length = false then
    ((debugImages b cp contents f.image).find? files.opens).map fun debugImage =>
      ⟨files.fileAt debugImage,debugImage⟩
  else none

/-- The system in which only missing files and views too large fail. -/
def undisturbed (files : FixedFiles) (b : Build) : FileSystem where
  succeeds
    | .calloc, _ => true
    | .CreateFileW path, _ => files.opens path
    | .CreateFileMapping _, _ => true
    | .MapViewOfFile hFile, _ => decide (FitsView b (files.contents hFile))
  fileOf h := h
  fileAt := files.fileAt
  contents := files.contents
  dwarf_object_init_b _ _ := true

variable {files : FixedFiles} {b : Build} {cp : CodePages} {w : FileSystem} {f g : DebugFile}

theorem undisturbed_within (files : FixedFiles) (b : Build) :
    files.Within b (files.undisturbed b) where
  opens _ _ := rfl
  fits _ _ h := of_decide_eq_true h
  fileAt := rfl
  contents := rfl

/-- Only paths that open lead on. -/
theorem reaches_finite (files : FixedFiles) (b : Build) (cp : CodePages) (f : DebugFile) :
    {g | Reaches (files.nextDebugFile b cp) f g}.Finite := by
  refine Chain.reaches_finite (files.finite.image fun path => ⟨files.fileAt path,path⟩) ?_ f
  intro c d h
  simp only [nextDebugFile] at h
  split at h
  · obtain ⟨path,hfind,rfl⟩ := Option.map_eq_some_iff.mp h
    exact ⟨path,List.find?_some hfind,rfl⟩
  · simp at h

/-- The search comes to nothing, or hands the first path that opens to the nested call. -/
theorem openDebugImage_within (hw : files.Within b w)
    (nested : FileId → List WCHAR → Kernel → Option (Option DwarfDebug × Kernel))
    (paths : List (List WCHAR)) (k : Kernel) :
    (paths.find? files.opens = none ∧ ∃ k', openDebugImage w nested paths k = some (none,k')) ∨
      ∃ path hFile k', paths.find? files.opens = some path ∧
        openDebugImage w nested paths k =
          (nested (files.fileAt path) path k').map fun r => (r.1,r.2.release hFile) := by
  induction paths generalizing k with
  | nil => exact .inl ⟨rfl,k,rfl⟩
  | cons path paths ih =>
    rcases ha : k.acquire w (.CreateFileW path) with ⟨_ | hFile,k₁⟩
    · have ho : files.opens path = false := hw.opens path k.clock ▸ acquire_none ha
      rw [openDebugImage,ha,List.find?_cons_of_neg (by simp [ho])]
      exact ih k₁
    · have ho : files.opens path = true := hw.opens path k.clock ▸ (acquire_kind ha).2.1
      refine .inr ⟨path,hFile,k₁,List.find?_cons_of_pos ho,?_⟩
      rw [openDebugImage,ha,← hw.fileAt]

/-- A call returns if the nested call it may make does. -/
theorem mgwhelp_dwarf_pe_init_isSome (hw : files.Within b w) {depth : ℕ}
    (hn : ∀ g, files.nextDebugFile b cp f = some g →
      ∀ k, (mgwhelp_dwarf_pe_init b cp w depth g.hFile g.image k).isSome = true) (k : Kernel) :
    (mgwhelp_dwarf_pe_init b cp w (depth + 1) f.hFile f.image k).isSome = true := by
  rcases h₁ : k.acquire w .calloc with ⟨_ | object,k₁⟩
  · simp [mgwhelp_dwarf_pe_init,h₁]
  rcases h₂ : k₁.acquire w (.CreateFileMapping f.hFile) with ⟨_ | hFileMapping,k₂⟩
  · simp [mgwhelp_dwarf_pe_init,h₁,h₂]
  rcases h₃ : k₂.acquire w (.MapViewOfFile f.hFile) with ⟨_ | lpFileBase,k₃⟩
  · simp [mgwhelp_dwarf_pe_init,h₁,h₂,h₃]
  have hfits : FitsView b (files.contents f.hFile) := hw.fits _ _ (acquire_kind h₃).2.1
  have hsize : fileSize b (w.contents f.hFile) = some (files.contents f.hFile).length := by
    rw [hw.contents,fileSize_of_fitsView hfits]
  cases hin : symbolTableExtendsBeyond b (w.contents f.hFile)
      (files.contents f.hFile).length with
  | true => simp [mgwhelp_dwarf_pe_init,h₁,h₂,h₃,hsize,hin]
  | false =>
    rw [mgwhelp_dwarf_pe_init_mapped h₁ h₂ h₃ hsize hin,Option.isSome_map]
    rw [hw.contents] at hin ⊢
    rcases openDebugImage_within hw (mgwhelp_dwarf_pe_init b cp w depth)
      (debugImages b cp (files.contents f.hFile) f.image) k₃ with
        ⟨-,k₄,ho⟩ | ⟨path,h,k₄,hfind,ho⟩
    · simp [ho]
    · have hnext : files.nextDebugFile b cp f = some ⟨files.fileAt path,path⟩ := by
        simp [nextDebugFile,hfits,hin,hfind]
      rw [ho,Option.isSome_map]
      exact hn _ hnext k₄

theorem acquire_of_succeeds {a : Attempt} {k : Kernel} (h : w.succeeds a k.clock = true) :
    ∃ r k', k.acquire w a = (some r,k') := by
  rw [Kernel.acquire,if_pos h]
  exact ⟨_,_,rfl⟩

/-- An undisturbed call makes the nested call, and does not return before it. -/
theorem mgwhelp_dwarf_pe_init_undisturbed {depth : ℕ}
    (hnext : files.nextDebugFile b cp f = some g)
    (hn : ∀ k, mgwhelp_dwarf_pe_init b cp (files.undisturbed b) depth g.hFile g.image k = none)
    (k : Kernel) :
    mgwhelp_dwarf_pe_init b cp (files.undisturbed b) (depth + 1) f.hFile f.image k = none := by
  simp only [nextDebugFile] at hnext
  split at hnext
  · next h =>
    obtain ⟨path,hfind,rfl⟩ := Option.map_eq_some_iff.mp hnext
    have hview : ∀ n, (files.undisturbed b).succeeds (.MapViewOfFile f.hFile) n = true :=
      fun _ => decide_eq_true h.1
    obtain ⟨object,k₁,h₁⟩ : ∃ r k', k.acquire (files.undisturbed b) .calloc = (some r,k') :=
      acquire_of_succeeds rfl
    obtain ⟨hFileMapping,k₂,h₂⟩ : ∃ r k',
        k₁.acquire (files.undisturbed b) (.CreateFileMapping f.hFile) = (some r,k') :=
      acquire_of_succeeds rfl
    obtain ⟨lpFileBase,k₃,h₃⟩ := acquire_of_succeeds (k:=k₂) (hview k₂.clock)
    rw [mgwhelp_dwarf_pe_init_mapped h₁ h₂ h₃ (fileSize_of_fitsView h.1) h.2]
    rcases openDebugImage_within (files.undisturbed_within b)
      (mgwhelp_dwarf_pe_init b cp (files.undisturbed b) depth)
      (debugImages b cp (files.contents f.hFile) f.image) k₃ with
        ⟨hnone,-⟩ | ⟨path',hFile,k₄,hfind',ho⟩
    · simp [hnone] at hfind
    · obtain rfl : path = path' := by simpa [hfind] using hfind'
      have hno : openDebugImage (files.undisturbed b)
          (mgwhelp_dwarf_pe_init b cp (files.undisturbed b) depth)
          (debugImages b cp (files.contents f.hFile) f.image) k₃ = none := by
        rw [ho]
        exact congrArg (Option.map _) (hn k₄)
      exact congrArg (Option.map _) hno
  · simp at hnext

/-- The call makes finitely many nested calls and returns, whatever else fails. -/
def Returns (files : FixedFiles) (b : Build) (cp : CodePages) (f : DebugFile) : Prop :=
  ∀ w, files.Within b w → ∀ k, ∃ n, ∀ depth ≥ n,
    (mgwhelp_dwarf_pe_init b cp w depth f.hFile f.image k).isSome = true

theorem returns_of_ends (h : (eval (files.nextDebugFile b cp) f).Dom) : files.Returns b cp f := by
  intro w hw
  have hall : ∃ n, ∀ depth ≥ n, ∀ k,
      (mgwhelp_dwarf_pe_init b cp w depth f.hFile f.image k).isSome = true := by
    refine Chain.ends_induction (fun c ih => ?_) f h
    cases hnext : files.nextDebugFile b cp c with
    | none =>
      refine ⟨1,fun depth hd => ?_⟩
      obtain ⟨depth,rfl⟩ := Nat.exists_eq_add_of_le' hd
      exact mgwhelp_dwarf_pe_init_isSome hw fun g hg => by simp [hnext] at hg
    | some d =>
      obtain ⟨n,hn⟩ := ih d hnext
      refine ⟨n + 1,fun depth hd => ?_⟩
      obtain ⟨depth,rfl⟩ := Nat.exists_eq_add_of_le' (Nat.le_of_add_left_le hd)
      refine mgwhelp_dwarf_pe_init_isSome hw fun g hg => ?_
      obtain rfl : d = g := by simpa [hnext] using hg
      exact hn depth (by omega)
  obtain ⟨n,hn⟩ := hall
  exact fun k => ⟨n,fun depth hd => hn depth hd k⟩

/-- On a chain without an end no stack is deep enough. -/
theorem undisturbed_never_returns (h : ¬(eval (files.nextDebugFile b cp) f).Dom) (depth : ℕ)
    (k : Kernel) : mgwhelp_dwarf_pe_init b cp (files.undisturbed b) depth f.hFile f.image k = none := by
  induction depth generalizing f k with
  | zero => rfl
  | succ depth ih =>
    cases hnext : files.nextDebugFile b cp f with
    | none => exact absurd (Part.dom_iff_mem.mpr ⟨f,Chain.eval_of_none hnext⟩) h
    | some g =>
      rw [Chain.eval_of_some hnext] at h
      exact mgwhelp_dwarf_pe_init_undisturbed hnext (ih h) k

theorem ends_of_returns (h : files.Returns b cp f) : (eval (files.nextDebugFile b cp) f).Dom := by
  by_contra hends
  obtain ⟨n,hn⟩ := h _ (files.undisturbed_within b) {}
  have hreturns := hn n (Nat.le_refl n)
  rw [undisturbed_never_returns hends] at hreturns
  simp at hreturns

/-- Following debuglinks ends exactly if no debug file on the way leads back to itself. -/
theorem debuglinks_end_iff (files : FixedFiles) (b : Build) (cp : CodePages) (f : DebugFile) :
    files.Returns b cp f ↔ ∀ g, Reaches (files.nextDebugFile b cp) f g →
      ¬Reaches₁ (files.nextDebugFile b cp) g g := by
  rw [← Chain.ends_iff_acyclic (files.reaches_finite b cp f)]
  exact ⟨ends_of_returns,returns_of_ends⟩

/-- An image with one section, a debuglink to `x.dbg`. -/
def linkedImage : Image :=
  imageHeaders 1 376 0 ++ sectionBytes [47,52] 8 0x1000 8 368 ++
    [120,46,100,98,103,0,0,0] ++ littleEndian 4 19 ++ debuglinkName ++ [0]

/-- This image alone, under the name `x.dbg`. -/
def selfLinked : FixedFiles where
  opens path := path = wide "x.dbg"
  finite := by simp
  fileAt _ := 0
  contents _ := linkedImage

/-- A file with a debuglink to its own name is opened again and again. -/
theorem self_link_never_returns :
    (∀ depth k, mgwhelp_dwarf_pe_init {} bareEnvironment.codePages (selfLinked.undisturbed {}) depth 0
      (wide "x.dbg") k = none) ∧
      ¬selfLinked.Returns {} bareEnvironment.codePages ⟨0,wide "x.dbg"⟩ := by
  have hlink : gnu_debuglink {} linkedImage = some [120,46,100,98,103] := by decide +kernel
  have hbeyond : symbolTableExtendsBeyond {} linkedImage linkedImage.length = false := by
    decide +kernel
  have hnext : selfLinked.nextDebugFile {} bareEnvironment.codePages ⟨0,wide "x.dbg"⟩ =
      some ⟨0,wide "x.dbg"⟩ := by
    have hfits : FitsView {} linkedImage := .inl rfl
    have hfind : (debugImages {} bareEnvironment.codePages linkedImage (wide "x.dbg")).find?
        selfLinked.opens = some (wide "x.dbg") := by
      rw [debugImages,hlink]
      decide
    rw [nextDebugFile,if_pos ⟨hfits,hbeyond⟩]
    exact congrArg (Option.map _) hfind
  have hends : ¬(eval (selfLinked.nextDebugFile {} bareEnvironment.codePages)
      ⟨0,wide "x.dbg"⟩).Dom := fun h => Chain.acyclic_of_ends h .refl (.single hnext)
  exact ⟨undisturbed_never_returns hends,fun h => hends (ends_of_returns h)⟩

end FixedFiles
end DrMingw
