import DrMingw.Kernel

/-! The DWARF object of a PE image: `mgwhelp_dwarf_pe_init`, which follows a
`.gnu_debuglink` to a separate debug file, and `mgwhelp_dwarf_pe_finish`. -/
namespace DrMingw
open PeImage

/-- A `Dwarf_Debug` with the `pe_access_object_t` and the interface record it refers to. -/
structure DwarfDebug where
  object : Resource
  hFileMapping : Resource
  lpFileBase : Resource
  intfc : Resource
  /-- The file the debug information comes from. -/
  file : FileId
  image : Image
  nFileSize : ℕ

def DwarfDebug.resources (d : DwarfDebug) : List Resource :=
  [d.intfc,d.lpFileBase,d.hFileMapping,d.object]

def isPathSeparator (c : WCHAR) : Bool := c = 92 || c = 47 || c = 58

/-- The part of a path up to its last separator. -/
def imageDir (path : List WCHAR) : List WCHAR :=
  (path.reverse.dropWhile fun c => !isPathSeparator c).reverse

/-- The last component of a path. -/
def getBaseNameW (path : List WCHAR) : List WCHAR := path.drop (imageDir path).length

/-- `debugSearchDirs`: the directory of the image and its `.debug` subdirectory. -/
def debugSearchDirs (image : List WCHAR) : List (List WCHAR) :=
  [imageDir image,imageDir image ++ wide ".debug\\"]

/-- The first candidate that can be opened is handed to the nested call. -/
def openDebugImage (w : FileSystem)
    (nested : FileId → List WCHAR → Kernel → Option (Option DwarfDebug × Kernel)) :
    List (List WCHAR) → Kernel → Option (Option DwarfDebug × Kernel)
  | [], k => some (none,k)
  | debugImage::rest, k =>
    match k.acquire w (.CreateFileW debugImage) with
    | (none,k) => openDebugImage w nested rest k
    | (some hFile,k) => (nested (w.fileAt debugImage) debugImage k).map fun r =>
        (r.1,r.2.release hFile)

/-- The debug files a debuglink of the image can mean. -/
def debugImages (b : Build) (cp : CodePages) (contents : Image) (image : List WCHAR) :
    List (List WCHAR) :=
  match gnu_debuglink b contents with
  | none => []
  | some debuglink => (debugSearchDirs image).map (· ++ cp.utf8ToWide debuglink)

/-- The labels `no_intfc`, `no_view_of_file` and `no_file_mapping`. -/
def discard (object hFileMapping lpFileBase : Resource) (k : Kernel) : Kernel :=
  ((k.release lpFileBase).release hFileMapping).release object

/-- `some dbg` stands for `DW_DLV_OK`. The call does not return when a chain of
debuglinks is longer than the stack is deep, or when an assertion fails. -/
def mgwhelp_dwarf_pe_init (b : Build) (cp : CodePages) (w : FileSystem) :
    ℕ → FileId → List WCHAR → Kernel → Option (Option DwarfDebug × Kernel)
  | 0, _, _, _ => none
  | depth + 1, hFile, image, k =>
    match k.acquire w .calloc with
    | (none,k) => some (none,k)
    | (some object,k) =>
    match k.acquire w (.CreateFileMapping hFile) with
    | (none,k) => some (none,k.release object)
    | (some hFileMapping,k) =>
    match k.acquire w (.MapViewOfFile hFile) with
    | (none,k) => some (none,(k.release hFileMapping).release object)
    | (some lpFileBase,k) =>
    match fileSize b (w.contents hFile) with
    | none => none
    | some nFileSize =>
      if symbolTableExtendsBeyond b (w.contents hFile) nFileSize then
        some (none,discard object hFileMapping lpFileBase k)
      else
        match openDebugImage w (mgwhelp_dwarf_pe_init b cp w depth)
            (debugImages b cp (w.contents hFile) image) k with
        | none => none
        | some (some dbg,k) => some (some dbg,discard object hFileMapping lpFileBase k)
        | some (none,k) =>
          match k.acquire w .calloc with
          | (none,k) => some (none,discard object hFileMapping lpFileBase k)
          | (some intfc,k) =>
            match k.initObject w hFile with
            | (true,k) => some (some ⟨object,hFileMapping,lpFileBase,intfc,hFile,
                w.contents hFile,nFileSize⟩,k)
            | (false,k) =>
              some (none,discard object hFileMapping lpFileBase (k.release intfc))

def mgwhelp_dwarf_pe_finish (dbg : DwarfDebug) (k : Kernel) : Kernel :=
  (((k.release dbg.intfc).release dbg.lpFileBase).release dbg.hFileMapping).release dbg.object

variable {b : Build} {cp : CodePages} {w : FileSystem} {k k' : Kernel} {held : List Resource}

theorem Owns.discard {object hFileMapping lpFileBase : Resource}
    (h : Owns k (lpFileBase::hFileMapping::object::held)) :
    Owns (DrMingw.discard object hFileMapping lpFileBase k) held :=
  h.release.release.release

theorem Owns.finish {dbg : DwarfDebug} (h : Owns k (dbg.resources ++ held)) :
    Owns (mgwhelp_dwarf_pe_finish dbg k) held :=
  Owns.release (Owns.release (Owns.release (Owns.release h)))

/-- What remains to be done once the search for a debug file has returned. -/
def afterDebugImage (w : FileSystem) (hFile : FileId) (nFileSize : ℕ)
    (object hFileMapping lpFileBase : Resource) :
    Option DwarfDebug × Kernel → Option DwarfDebug × Kernel
  | (some dbg,k) => (some dbg,discard object hFileMapping lpFileBase k)
  | (none,k) =>
    match k.acquire w .calloc with
    | (none,k) => (none,discard object hFileMapping lpFileBase k)
    | (some intfc,k) =>
      match k.initObject w hFile with
      | (true,k) =>
        (some ⟨object,hFileMapping,lpFileBase,intfc,hFile,w.contents hFile,nFileSize⟩,k)
      | (false,k) => (none,discard object hFileMapping lpFileBase (k.release intfc))

/-- A file that is mapped and passes the check goes to the search. -/
theorem mgwhelp_dwarf_pe_init_mapped {depth : ℕ} {hFile : FileId} {image : List WCHAR}
    {object hFileMapping lpFileBase : Resource} {k₁ k₂ k₃ : Kernel} {nFileSize : ℕ}
    (h₁ : k.acquire w .calloc = (some object,k₁))
    (h₂ : k₁.acquire w (.CreateFileMapping hFile) = (some hFileMapping,k₂))
    (h₃ : k₂.acquire w (.MapViewOfFile hFile) = (some lpFileBase,k₃))
    (hsize : fileSize b (w.contents hFile) = some nFileSize)
    (hin : symbolTableExtendsBeyond b (w.contents hFile) nFileSize = false) :
    mgwhelp_dwarf_pe_init b cp w (depth + 1) hFile image k =
      (openDebugImage w (mgwhelp_dwarf_pe_init b cp w depth)
        (debugImages b cp (w.contents hFile) image) k₃).map
          (afterDebugImage w hFile nFileSize object hFileMapping lpFileBase) := by
  simp only [mgwhelp_dwarf_pe_init,h₁,h₂,h₃,hsize,hin]
  rcases openDebugImage w (mgwhelp_dwarf_pe_init b cp w depth)
      (debugImages b cp (w.contents hFile) image) k₃ with _ | ⟨_ | dbg,k₄⟩
  · rfl
  · simp only [Option.map_some,afterDebugImage]
    rcases k₄.acquire w .calloc with ⟨_ | intfc,k₅⟩
    · rfl
    · dsimp only
      rcases k₅.initObject w hFile with ⟨_ | _,k₆⟩ <;> rfl
  · rfl

/-- The resources a result holds on to. -/
def debugResources (dbg : Option DwarfDebug) : List Resource := dbg.elim [] DwarfDebug.resources

theorem openDebugImage_owns
    {nested : FileId → List WCHAR → Kernel → Option (Option DwarfDebug × Kernel)}
    (hn : ∀ file path k k' held dbg, Owns k held → nested file path k = some (dbg,k') →
      Owns k' (debugResources dbg ++ held))
    (paths : List (List WCHAR)) {dbg : Option DwarfDebug} (h : Owns k held)
    (ho : openDebugImage w nested paths k = some (dbg,k')) :
    Owns k' (debugResources dbg ++ held) := by
  induction paths generalizing k with
  | nil =>
    obtain ⟨rfl,rfl⟩ := by simpa [openDebugImage] using ho
    exact h
  | cons path paths ih =>
    simp only [openDebugImage] at ho
    rcases ha : k.acquire w (.CreateFileW path) with ⟨_ | hFile,k₁⟩
    · rw [ha] at ho
      exact ih (h.refused ha) ho
    · rw [ha] at ho
      obtain ⟨⟨dbg₁,k₂⟩,hk,heq⟩ := Option.map_eq_some_iff.mp ho
      obtain ⟨rfl,rfl⟩ := Prod.mk.inj heq
      have hh := hn _ _ _ _ _ _ (h.acquired ha) hk
      exact (hh.perm List.perm_middle).release

theorem afterDebugImage_owns {hFile : FileId} {nFileSize : ℕ}
    {object hFileMapping lpFileBase : Resource} {dbg dbg' : Option DwarfDebug}
    (h : Owns k (debugResources dbg ++ lpFileBase::hFileMapping::object::held))
    (ha : afterDebugImage w hFile nFileSize object hFileMapping lpFileBase (dbg,k) = (dbg',k')) :
    Owns k' (debugResources dbg' ++ held) := by
  cases dbg with
  | some dbg =>
    obtain ⟨rfl,rfl⟩ := Prod.mk.inj ha
    exact (h.perm (List.perm_append_comm_assoc _ [lpFileBase,hFileMapping,object] _)).discard
  | none =>
    simp only [afterDebugImage] at ha
    rcases h₁ : k.acquire w .calloc with ⟨_ | intfc,k₁⟩
    · rw [h₁] at ha
      obtain ⟨rfl,rfl⟩ := Prod.mk.inj ha
      exact (h.refused h₁).discard
    have hown := h.acquired h₁
    rw [h₁] at ha
    rcases h₂ : k₁.initObject w hFile with ⟨_ | _,k₂⟩
    · simp only [h₂] at ha
      obtain ⟨rfl,rfl⟩ := Prod.mk.inj ha
      exact (hown.initObject h₂).release.discard
    · simp only [h₂] at ha
      obtain ⟨rfl,rfl⟩ := Prod.mk.inj ha
      exact hown.initObject h₂

/-- A call that returns has given up before the search for a debug file, with nothing left
open, or has gone on from the result of the search. -/
theorem mgwhelp_dwarf_pe_init_cases {depth : ℕ} {hFile : FileId} {image : List WCHAR}
    {dbg : Option DwarfDebug}
    (hi : mgwhelp_dwarf_pe_init b cp w (depth + 1) hFile image k = some (dbg,k')) :
    (dbg = none ∧ ∀ held, Owns k held → Owns k' held) ∨
      ∃ object hFileMapping lpFileBase k₁ k₂ k₃ nFileSize x,
        k.acquire w .calloc = (some object,k₁) ∧
        k₁.acquire w (.CreateFileMapping hFile) = (some hFileMapping,k₂) ∧
        k₂.acquire w (.MapViewOfFile hFile) = (some lpFileBase,k₃) ∧
        openDebugImage w (mgwhelp_dwarf_pe_init b cp w depth)
          (debugImages b cp (w.contents hFile) image) k₃ = some x ∧
        afterDebugImage w hFile nFileSize object hFileMapping lpFileBase x = (dbg,k') := by
  rcases h₁ : k.acquire w .calloc with ⟨_ | object,k₁⟩
  · obtain ⟨rfl,rfl⟩ := by simpa [mgwhelp_dwarf_pe_init,h₁] using hi
    exact .inl ⟨rfl,fun _ h => h.refused h₁⟩
  rcases h₂ : k₁.acquire w (.CreateFileMapping hFile) with ⟨_ | hFileMapping,k₂⟩
  · obtain ⟨rfl,rfl⟩ := by simpa [mgwhelp_dwarf_pe_init,h₁,h₂] using hi
    exact .inl ⟨rfl,fun _ h => ((h.acquired h₁).refused h₂).release⟩
  rcases h₃ : k₂.acquire w (.MapViewOfFile hFile) with ⟨_ | lpFileBase,k₃⟩
  · obtain ⟨rfl,rfl⟩ := by simpa [mgwhelp_dwarf_pe_init,h₁,h₂,h₃] using hi
    exact .inl ⟨rfl,fun _ h => (((h.acquired h₁).acquired h₂).refused h₃).release.release⟩
  rcases hsize : fileSize b (w.contents hFile) with _ | nFileSize
  · simp [mgwhelp_dwarf_pe_init,h₁,h₂,h₃,hsize] at hi
  cases hin : symbolTableExtendsBeyond b (w.contents hFile) nFileSize with
  | true =>
    obtain ⟨rfl,rfl⟩ := by simpa [mgwhelp_dwarf_pe_init,h₁,h₂,h₃,hsize,hin] using hi
    exact .inl ⟨rfl,fun _ h => (((h.acquired h₁).acquired h₂).acquired h₃).discard⟩
  | false =>
    rw [mgwhelp_dwarf_pe_init_mapped h₁ h₂ h₃ hsize hin] at hi
    obtain ⟨x,ho,ha⟩ := Option.map_eq_some_iff.mp hi
    exact .inr ⟨object,hFileMapping,lpFileBase,k₁,k₂,k₃,nFileSize,x,rfl,h₂,h₃,ho,ha⟩

/-- On every path the call keeps exactly the resources of the object it returns. -/
theorem mgwhelp_dwarf_pe_init_owns {depth : ℕ} {hFile : FileId} {image : List WCHAR}
    {dbg : Option DwarfDebug} (h : Owns k held)
    (hi : mgwhelp_dwarf_pe_init b cp w depth hFile image k = some (dbg,k')) :
    Owns k' (debugResources dbg ++ held) := by
  induction depth generalizing hFile image k k' held dbg with
  | zero => simp [mgwhelp_dwarf_pe_init] at hi
  | succ depth ih =>
    rcases mgwhelp_dwarf_pe_init_cases hi with
      ⟨rfl,hback⟩ | ⟨object,hFileMapping,lpFileBase,k₁,k₂,k₃,nFileSize,x,h₁,h₂,h₃,ho,ha⟩
    · exact hback held h
    · have hown := ((h.acquired h₁).acquired h₂).acquired h₃
      have hopen := openDebugImage_owns (fun _ _ _ _ _ _ hk hr => ih hk hr) _ hown ho
      exact afterDebugImage_owns hopen ha

end DrMingw
