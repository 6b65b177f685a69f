import DrMingw.DebugLinks
import DrMingw.NearestSymbol

/-! What a call of `mgwhelp_dwarf_pe_init` leaves open, through any nesting of debuglinks
and any failures: the resources of the object it returns, or nothing. -/
namespace DrMingw
open PeImage Ledger

/-- The record, the view, the mapping and the object, each of its kind. -/
structure DwarfDebug.WellKinded (d : DwarfDebug) : Prop where
  intfc : d.intfc.kind = .memory
  lpFileBase : d.lpFileBase.kind = .view
  hFileMapping : d.hFileMapping.kind = .mapping
  object : d.object.kind = .memory

/-- The call holds the four resources of the object, and `mgwhelp_dwarf_pe_finish`
releases each of them once. -/
structure HandsOver (k : Kernel) (d : DwarfDebug) : Prop where
  kinds : d.WellKinded
  held : HoldsExactly k.log d.resources
  finished : Settled (mgwhelp_dwarf_pe_finish d k).log
  once : ∀ r ∈ d.resources, released k.log r = 0 ∧ released (mgwhelp_dwarf_pe_finish d k).log r = 1

/-- What a call has left open when it returns. -/
def Leaves (k : Kernel) : Option DwarfDebug → Prop
  | some d => HandsOver k d
  | none => Settled k.log

variable {b : Build} {cp : CodePages} {w : FileSystem} {k k' : Kernel} {d : DwarfDebug}

theorem openDebugImage_wellKinded
    {nested : FileId → List WCHAR → Kernel → Option (Option DwarfDebug × Kernel)}
    (hn : ∀ file path k k' d, nested file path k = some (some d,k') → d.WellKinded)
    (paths : List (List WCHAR)) (ho : openDebugImage w nested paths k = some (some d,k')) :
    d.WellKinded := by
  induction paths generalizing k with
  | nil => simp [openDebugImage] at ho
  | cons path paths ih =>
    simp only [openDebugImage] at ho
    rcases ha : k.acquire w (.CreateFileW path) with ⟨_ | hFile,k₁⟩
    · rw [ha] at ho
      exact ih ho
    · rw [ha] at ho
      obtain ⟨⟨dbg,k₂⟩,hk,heq⟩ := Option.map_eq_some_iff.mp ho
      obtain ⟨rfl,-⟩ := Prod.mk.inj heq
      exact hn _ _ _ _ _ hk

/-- An object is of the kinds it was allocated with, here or by a nested call. -/
theorem mgwhelp_dwarf_pe_init_wellKinded {depth : ℕ} {hFile : FileId} {image : List WCHAR}
    (hi : mgwhelp_dwarf_pe_init b cp w depth hFile image k = some (some d,k')) :
    d.WellKinded := by
  induction depth generalizing hFile image k k' d with
  | zero => simp [mgwhelp_dwarf_pe_init] at hi
  | succ depth ih =>
    rcases mgwhelp_dwarf_pe_init_cases hi with
      ⟨hnone,-⟩ | ⟨object,hFileMapping,lpFileBase,k₁,k₂,k₃,nFileSize,⟨dbg,k₄⟩,h₁,h₂,h₃,ho,ha⟩
    · simp at hnone
    cases dbg with
    | some dbg =>
      obtain ⟨hd,-⟩ := Prod.mk.inj ha
      obtain rfl := Option.some.inj hd
      exact openDebugImage_wellKinded (fun _ _ _ _ _ hr => ih hr) _ ho
    | none =>
      simp only [afterDebugImage] at ha
      rcases h₅ : k₄.acquire w .calloc with ⟨_ | intfc,k₅⟩
      · simp [h₅] at ha
      rcases h₆ : k₅.initObject w hFile with ⟨_ | _,k₆⟩
      · simp [h₅,h₆] at ha
      · simp only [h₅,h₆] at ha
        obtain ⟨hd,-⟩ := Prod.mk.inj ha
        obtain rfl := Option.some.inj hd
        exact ⟨(acquire_kind h₅).1,(acquire_kind h₃).1,(acquire_kind h₂).1,(acquire_kind h₁).1⟩

/-- Before a call, nothing of what it does has been logged. -/
theorem owns_start (clock : ℕ) : Owns ⟨clock,[]⟩ [] :=
  ⟨fun _ => by simp,holds_nil,fun _ _ => rfl⟩

/-- The resources of one object alone are handed over. -/
theorem Owns.handsOver (h : Owns k d.resources) (hd : d.WellKinded) : HandsOver k d := by
  have hfin : Owns (mgwhelp_dwarf_pe_finish d k) [] := Owns.finish (by simpa using h)
  have hsettled := (settled_iff hfin.distinct hfin.holds).mpr rfl
  have hexact := h.holds.exactly h.distinct
  refine ⟨hd,hexact,hsettled,fun r hr => ⟨h.not_released hr,?_⟩⟩
  have hheld := (hexact.mem_iff r).mp hr
  have hsame : Ledger.acquired (mgwhelp_dwarf_pe_finish d k).log r = Ledger.acquired k.log r := by
    simp [mgwhelp_dwarf_pe_finish,Kernel.release,Ledger.acquired]
  have honce := (hexact.once r).2
  have hall := (hsettled r).2
  omega

/-- After success the call holds the resources of the object it returns, which are given
back once; after failure it holds nothing. -/
theorem dwarf_init_resources (b : Build) (cp : CodePages) (w : FileSystem) (depth : ℕ)
    (hFile : FileId) (image : List WCHAR) (clock : ℕ) (dbg : Option DwarfDebug) (k : Kernel)
    (h : mgwhelp_dwarf_pe_init b cp w depth hFile image ⟨clock,[]⟩ = some (dbg,k)) :
    Leaves k dbg := by
  have hown : Owns k (debugResources dbg) := by
    simpa using mgwhelp_dwarf_pe_init_owns (owns_start clock) h
  cases dbg with
  | some d => exact hown.handsOver (mgwhelp_dwarf_pe_init_wellKinded h)
  | none => exact (settled_iff hown.distinct hown.holds).mpr rfl

/-- The debug file of `linkedImage` is found in the directory `.debug`; only it has debug
information. -/
def debugDirectory : FileSystem where
  succeeds
    | .CreateFileW path, _ => path = wide ".debug\\x.dbg"
    | _, _ => true
  fileOf h := h
  fileAt _ := 1
  contents file := if file = 0 then FixedFiles.linkedImage else twoFunctions
  dwarf_object_init_b file _ := file = 1

theorem dwarf_init_resources_linked :
    ∃ d k, mgwhelp_dwarf_pe_init {} bareEnvironment.codePages debugDirectory 2 0 (wide "a.exe")
      ⟨0,[]⟩ = some (some d,k) ∧ d.file = 1 ∧ HandsOver k d := by
  have hfile : ((mgwhelp_dwarf_pe_init {} bareEnvironment.codePages debugDirectory 2 0
      (wide "a.exe") ⟨0,[]⟩).bind (·.1)).map (·.file) = some 1 := by decide +kernel
  obtain ⟨d,hd,hone⟩ := Option.map_eq_some_iff.mp hfile
  obtain ⟨⟨dbg,k⟩,hi,rfl⟩ := Option.bind_eq_some_iff.mp hd
  exact ⟨d,k,hi,hone,dwarf_init_resources _ _ _ _ _ _ _ _ _ hi⟩

end DrMingw
