import DrMingw.Undecoration

/-! The paths of source files on their way to the caller: through the static buffer of
`MgwSymGetLineFromAddrW64`, the static ANSI buffer, and the buffer of `GetLineFromAddr`. -/
namespace DrMingw

/-- Who reports the path. -/
inductive PathSource
  | dwarf
  | dbgHelp

/-- A path reported for an address. -/
structure SourcePath where
  source : PathSource
  path : List WCHAR
  noNul : 0 ∉ path

variable (e : Environment) (p : SourcePath)

/-- The memory from `Line->FileName` on. A path from DWARF is copied to `buf`, and
`DbgHelp` has a string of its own. -/
def SourcePath.FileName (behind : List WCHAR) : List WCHAR :=
  match p.source with
  | .dwarf => strncpy p.path 1024 ++ behind
  | .dbgHelp => p.path ++ 0::behind

/-- The size of the buffer there. -/
def SourcePath.capacity : ℕ :=
  match p.source with
  | .dwarf => 1024
  | .dbgHelp => p.path.length + 1

/-- The static `FileName` of `MgwSymGetLineFromAddr64`, which held `FileName` before. -/
def SourcePath.ansiFileName (behind : List WCHAR) (FileName : List CHAR) : List CHAR :=
  (convertInto (e.codePages.wideToAnsi (cstr (p.FileName behind))) 1024 FileName).2

/-- `lpFileName` after `GetLineFromAddr`. -/
def SourcePath.GetLineFromAddr (behind lpFileName : List WCHAR) (nSize : ℕ) : List WCHAR :=
  strncpy (cstr (p.FileName behind)) nSize ++ lpFileName.drop nSize

/-- A path from DWARF fits the first buffer. -/
def SourcePath.Fits : Prop :=
  match p.source with
  | .dwarf => p.path.length < 1024
  | .dbgHelp => True

variable {e p} {behind lpFileName : List WCHAR} {FileName : List CHAR} {nSize : ℕ}

theorem SourcePath.fileName_iff (p : SourcePath) (behind : List WCHAR) :
    HoldsPrefix (p.FileName behind) p.capacity p.path ↔ p.Fits := by
  rw [FileName,capacity,Fits]
  cases p.source with
  | dwarf => simpa using strncpy_holdsPrefix_iff (n:=1024) p.noNul behind p.path
  | dbgHelp =>
    have hholds := holdsString_append_zero p.noNul p.path.length.lt_succ_self behind
    exact iff_of_true hholds.holdsPrefix trivial

/-- What is read from the buffer: the path, or more than its capacity. -/
theorem SourcePath.read_fileName (p : SourcePath) (behind : List WCHAR) :
    (p.Fits → cstr (p.FileName behind) = p.path) ∧
      (¬p.Fits → cstr (p.FileName behind) = p.path.take 1024 ++ cstr behind) := by
  rw [FileName,Fits]
  cases p.source with
  | dwarf =>
    dsimp only
    rw [cstr_strncpy p.noNul]
    exact ⟨fun h => if_pos h,fun h => if_neg h⟩
  | dbgHelp => exact ⟨fun _ => cstr_append_zero p.noNul behind,fun h => absurd trivial h⟩

theorem SourcePath.ansiFileName_iff (he : e.KeepsStrings) (p : SourcePath) (FileName : List CHAR) :
    (∀ behind, HoldsPrefix (p.ansiFileName e behind FileName) 1024 (e.codePages.wideToAnsi p.path)) ↔
      p.Fits ∧ (e.codePages.wideToAnsi p.path).length < 1024 := by
  have hone : ∀ behind,
      HoldsPrefix (p.ansiFileName e behind FileName) 1024 (e.codePages.wideToAnsi p.path) ↔
        (e.codePages.wideToAnsi (cstr (p.FileName behind))).length < 1024 ∧
          e.codePages.wideToAnsi (cstr (p.FileName behind)) <+: e.codePages.wideToAnsi p.path :=
    fun behind => convertInto_holdsPrefix_iff (he.wideToAnsi _ (zero_notMem_cstr _)) (by decide)
      FileName _
  simp only [hone]
  by_cases hfit : p.Fits
  · simp [(p.read_fileName _).1 hfit,hfit]
  · refine iff_of_false (fun hall => ?_) fun h => hfit h.1
    -- letters behind the buffer make any string too long
    have hlong := (hall (List.replicate 2048 65)).1
    have hlen := he.length (p.path.take 1024 ++ List.replicate 2048 65)
    rw [(p.read_fileName _).2 hfit,cstr_replicate (by decide)] at hlong
    rw [List.length_append,List.length_replicate] at hlen
    omega

theorem SourcePath.getLineFromAddr_iff (p : SourcePath) (lpFileName : List WCHAR) (nSize : ℕ) :
    (∀ behind, HoldsPrefix (p.GetLineFromAddr behind lpFileName nSize) nSize p.path) ↔
      p.Fits ∧ p.path.length < nSize := by
  have hone : ∀ behind, HoldsPrefix (p.GetLineFromAddr behind lpFileName nSize) nSize p.path ↔
      (cstr (p.FileName behind)).length < nSize ∧ cstr (p.FileName behind) <+: p.path :=
    fun behind => strncpy_holdsPrefix_iff (zero_notMem_cstr _) _ _
  simp only [hone]
  by_cases hfit : p.Fits
  · simp [(p.read_fileName _).1 hfit,hfit]
  · refine iff_of_false (fun hall => ?_) fun h => hfit h.1
    have hlong := (hall (List.replicate nSize 65)).1
    rw [(p.read_fileName _).2 hfit,cstr_replicate (by decide),List.length_append,
      List.length_replicate] at hlong
    omega

section Answers

variable {w : World} {d : DbgHelp} {h : HANDLE} {a : DWORD64} {disp : Option DWORD} {s s' : MgwHelp}

/-- A DWARF answer hands out the static buffer, with zeros behind it. -/
theorem ownLine_fileName {l : Line WCHAR} {reply : Reply DWORD (Line WCHAR)}
    (ho : ownLine e w h a disp l s = some (some reply,s')) (hz : 0 ∉ s'.info.filename) :
    reply.record.FileName =
      stringIn (SourcePath.FileName ⟨.dwarf,s'.info.filename,hz⟩ []) := by
  rw [SourcePath.FileName,List.append_nil]
  simp only [ownLine] at ho
  split at ho
  · simp at ho
  · split at ho
    · simp at ho
    · simp only [Option.some.injEq,Prod.mk.injEq,Option.ite_none_right_eq_some] at ho
      obtain ⟨⟨-,rfl⟩,rfl⟩ := ho
      rfl

/-- The ANSI answer is converted from the string that the wide one hands out. -/
theorem ansiLine_fileName {Line : Line CHAR} {r : Reply DWORD (DrMingw.Line WCHAR)}
    (hr : MgwSymGetLineFromAddrW64 e w d h a disp {} s = some (r,s')) (hret : r.ret = true)
    (hname : r.record.FileName = some (cstr (p.FileName behind))) :
    (MgwSymGetLineFromAddr64 e w d h a disp Line s).map (·.1.record.FileName) =
      some (stringIn (p.ansiFileName e behind (List.replicate 1024 0))) := by
  simp only [MgwSymGetLineFromAddr64,hr,Option.map_some,hname,hret,if_true]
  rfl

end Answers

/-- A path stays a string from buffer to buffer exactly if it fits each of them. -/
theorem source_paths_iff (e : Environment) (he : e.KeepsStrings) (p : SourcePath) :
    ((∀ behind, HoldsPrefix (p.FileName behind) p.capacity p.path) ↔ p.Fits) ∧
    (∀ FileName, (∀ behind,
      HoldsPrefix (p.ansiFileName e behind FileName) 1024 (e.codePages.wideToAnsi p.path)) ↔
        p.Fits ∧ (e.codePages.wideToAnsi p.path).length < 1024) ∧
    ∀ lpFileName nSize, (∀ behind,
      HoldsPrefix (p.GetLineFromAddr behind lpFileName nSize) nSize p.path) ↔
        p.Fits ∧ p.path.length < nSize :=
  ⟨⟨fun h => (p.fileName_iff []).mp (h []),fun h behind => (p.fileName_iff behind).mpr h⟩,
    p.ansiFileName_iff he,p.getLineFromAddr_iff⟩

/-- `a.c`, in DWARF. -/
def shortPath : SourcePath := ⟨.dwarf,wide "a.c",by decide⟩

theorem source_paths_short :
    HoldsPrefix (shortPath.GetLineFromAddr (wide "behind") [] MAX_PATH) MAX_PATH (wide "a.c") :=
  ((source_paths_iff demanglingEnvironment demanglingEnvironment_keepsStrings
    shortPath).2.2 [] MAX_PATH).mpr
    ⟨show (wide "a.c").length < 1024 by decide,by decide⟩ _

/-- 1024 letters, in DWARF. -/
def longPath : SourcePath := ⟨.dwarf,List.replicate 1024 97,by decide +kernel⟩

/-- 1024 letters reported by `DbgHelp`. -/
def longDbgHelpPath : SourcePath := ⟨.dbgHelp,List.replicate 1024 97,by decide +kernel⟩

/-- No buffer holds a string of 1024 letters, whoever reports it, and that of `dumpStack`
none of 260. -/
theorem source_paths_broken :
    ¬HoldsPrefix (longPath.FileName [0]) 1024 longPath.path ∧
    ¬HoldsPrefix (longDbgHelpPath.ansiFileName bareEnvironment [] (List.replicate 1024 0)) 1024
      (bareEnvironment.codePages.wideToAnsi longDbgHelpPath.path) ∧
    ¬HoldsPrefix (SourcePath.GetLineFromAddr ⟨.dwarf,List.replicate 260 97,by decide +kernel⟩ []
      (List.replicate 260 0) MAX_PATH) MAX_PATH (List.replicate 260 97) := by
  simp only [HoldsPrefix]
  decide +kernel

end DrMingw
