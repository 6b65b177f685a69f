import DrMingw.ModuleRegistry

/-! The stack of a crashed thread as the report shows it: `dumpStack` asks `StackWalk64`
for one frame after the other, and stops by itself when the stack does not go on. -/
namespace DrMingw

def IMAGE_FILE_MACHINE_I386 : DWORD := 0x14c
def IMAGE_FILE_MACHINE_AMD64 : DWORD := 0x8664
def IMAGE_FILE_MACHINE_ARM64 : DWORD := 0xaa64

/-- The registers of a thread that its first frame is made of. -/
inductive Context
  | i386 (Eip Esp Ebp : DWORD)
  | amd64 (Rip Rsp Rbp : DWORD64)
  | arm64 (Pc Sp Fp : DWORD64)

structure STACKFRAME64 where
  AddrPC : DWORD64
  AddrStack : DWORD64
  AddrFrame : DWORD64
  Params : Fin 4 → DWORD64 := fun _ => 0

def Context.MachineType : Context → DWORD
  | .i386 .. => IMAGE_FILE_MACHINE_I386
  | .amd64 .. => IMAGE_FILE_MACHINE_AMD64
  | .arm64 .. => IMAGE_FILE_MACHINE_ARM64

def Context.StackFrame : Context → STACKFRAME64
  | .i386 Eip Esp Ebp =>
    { AddrPC := Eip.toUInt64, AddrStack := Esp.toUInt64, AddrFrame := Ebp.toUInt64 }
  | .amd64 Rip Rsp Rbp => { AddrPC := Rip, AddrStack := Rsp, AddrFrame := Rbp }
  | .arm64 Pc Sp Fp => { AddrPC := Pc, AddrStack := Sp, AddrFrame := Fp }

/-- What the system answers while one stack is dumped. -/
structure StackAnswers where
  isInsideWine : Bool
  /-- The frame of each call, or failure. -/
  StackWalk64 : ℕ → Option STACKFRAME64
  SymGetModuleBase64 : DWORD64 → DWORD64
  GetModuleFileNameExW : DWORD64 → Option (List WCHAR)
  GetSymFromAddr : DWORD64 → Option (List CHAR × DWORD)
  GetLineFromAddr : DWORD64 → Option (List WCHAR × DWORD)

/-- What stands behind the base name of the module. -/
inductive Location
  /-- The line is followed by an excerpt of its file. -/
  | symbol (szSymName : List CHAR) (offset : DWORD) (line : Option (List WCHAR × DWORD))
  | offset (a : DWORD64)

/-- One line of the back-trace. -/
structure FrameLine where
  StackFrame : STACKFRAME64
  /-- The program counter and three parameters. -/
  printed : List DWORD64
  location : Option (List WCHAR × Location)

/-- `(DWORD64)(INT_PTR)` of a pointer. -/
def Build.intPtr (b : Build) (a : DWORD64) : DWORD64 :=
  if b.win64 then a else a.toUInt32.toInt32.toInt64.toUInt64

variable (b : Build) (s : StackAnswers)

def printFrame (MachineType : DWORD) (StackFrame : STACKFRAME64) (nudge : DWORD64) : FrameLine :=
  let AddrPC := StackFrame.AddrPC
  let addresses := [AddrPC,StackFrame.Params 0,StackFrame.Params 1,StackFrame.Params 2]
  let hModule := b.uintPtr (s.SymGetModuleBase64 AddrPC)
  { StackFrame := StackFrame
    printed := if MachineType = IMAGE_FILE_MACHINE_I386 then addresses.map (· &&& 0xFFFFFFFF)
      else addresses
    location := if hModule = 0 then none else
      (s.GetModuleFileNameExW hModule).map fun szModule =>
        (getBaseNameW szModule,match s.GetSymFromAddr (AddrPC + nudge) with
          | some (szSymName,dwOffsetFromSymbol) => .symbol szSymName
              (dwOffsetFromSymbol - nudge.toUInt32) (s.GetLineFromAddr (AddrPC + nudge))
          | none => .offset (AddrPC - b.intPtr hModule)) }

/-- The frames from call `n` on. The frame after which the loop stops is printed too. -/
def walkFrames (MachineType : DWORD) :
    ℕ → ℕ → DWORD64 → DWORD64 → Option (List FrameLine)
  | 0,_,_,_ => none
  | fuel + 1,n,PrevFrameStackOffset,nudge =>
    match s.StackWalk64 n with
    | none => some []
    | some StackFrame =>
      let line := printFrame b s MachineType StackFrame nudge
      if StackFrame.AddrStack ≤ PrevFrameStackOffset ∨ StackFrame.AddrPC = 0xBAADF00D then
        some [line]
      else if s.isInsideWine ∧ StackFrame.AddrFrame = 0 then some [line]
      else (walkFrames MachineType fuel (n + 1) StackFrame.AddrStack (-1)).map (line::·)

/-- The bound of the first frame; it wraps if the stack pointer is 0. -/
def Context.PrevFrameStackOffset (pContext : Context) : DWORD64 :=
  pContext.StackFrame.AddrStack - 1

def dumpStack (fuel : ℕ) (pContext : Context) : Option (List FrameLine) :=
  walkFrames b s pContext.MachineType fuel 0 pContext.PrevFrameStackOffset 0

/-- The stack offsets are above a bound and strictly increasing. -/
structure Increasing (bound : DWORD64) (frames : List FrameLine) : Prop where
  above : ∀ line ∈ frames, bound < line.StackFrame.AddrStack
  sorted : frames.Pairwise fun line later => line.StackFrame.AddrStack < later.StackFrame.AddrStack

variable {b s} {MachineType : DWORD} {bound nudge : DWORD64} {n fuel : ℕ} {line : FrameLine}
  {frames : List FrameLine}

theorem increasing_nil (bound : DWORD64) : Increasing bound [] := ⟨by simp,.nil⟩

theorem Increasing.cons (hline : bound < line.StackFrame.AddrStack)
    (h : Increasing line.StackFrame.AddrStack frames) : Increasing bound (line::frames) where
  above l hl := by
    rcases List.mem_cons.mp hl with rfl | hl
    · exact hline
    · exact UInt64.lt_trans hline (h.above l hl)
  sorted := List.pairwise_cons.mpr ⟨h.above,h.sorted⟩

/-- One turn of the loop: it stops with one frame at most, or goes on from a frame above
the bound. -/
theorem walkFrames_succ (b : Build) (s : StackAnswers) (MachineType : DWORD) (n : ℕ)
    (bound nudge : DWORD64) :
    (∃ frames, frames.length ≤ 1 ∧
      ∀ fuel, walkFrames b s MachineType (fuel + 1) n bound nudge = some frames) ∨
    ∃ line : FrameLine, bound < line.StackFrame.AddrStack ∧
      ∀ fuel, walkFrames b s MachineType (fuel + 1) n bound nudge =
        (walkFrames b s MachineType fuel (n + 1) line.StackFrame.AddrStack (-1)).map (line::·) := by
  rcases hwalk : s.StackWalk64 n with _ | StackFrame
  · exact .inl ⟨[],by simp,fun fuel => by rw [walkFrames,hwalk]⟩
  · by_cases hstop : (StackFrame.AddrStack ≤ bound ∨ StackFrame.AddrPC = 0xBAADF00D) ∨
        (s.isInsideWine ∧ StackFrame.AddrFrame = 0)
    · refine .inl ⟨[printFrame b s MachineType StackFrame nudge],by simp,fun fuel => ?_⟩
      rw [walkFrames,hwalk]
      rcases hstop with hbad | hwine
      · exact if_pos hbad
      · exact (if_congr Iff.rfl rfl (if_pos hwine)).trans (ite_self _)
    · obtain ⟨hgood,hwine⟩ := not_or.mp hstop
      refine .inr ⟨printFrame b s MachineType StackFrame nudge,?_,fun fuel => ?_⟩
      · exact UInt64.not_le.mp (not_or.mp hgood).1
      · rw [walkFrames,hwalk]
        exact (if_neg hgood).trans (if_neg hwine)

/-- Each frame but the last raises the bound. -/
theorem walkFrames_increasing
    (h : walkFrames b s MachineType fuel n bound nudge = some frames) :
    Increasing bound frames.dropLast ∧ frames.length ≤ fuel := by
  induction fuel generalizing n bound nudge frames with
  | zero => simp [walkFrames] at h
  | succ fuel ih =>
    rcases walkFrames_succ b s MachineType n bound nudge with
      ⟨stopped,hlen,hstop⟩ | ⟨line,hline,hgo⟩
    · obtain rfl := Option.some.inj ((hstop fuel).symm.trans h)
      refine ⟨?_,hlen.trans (Nat.le_add_left 1 fuel)⟩
      have hnone : stopped.dropLast = [] :=
        List.length_eq_zero_iff.mp (by rw [List.length_dropLast]; omega)
      rw [hnone]
      exact increasing_nil bound
    · rw [hgo] at h
      obtain ⟨rest,hrest,rfl⟩ := Option.map_eq_some_iff.mp h
      obtain ⟨hinc,hlen⟩ := ih hrest
      refine ⟨?_,Nat.succ_le_succ hlen⟩
      cases rest with
      | nil => exact increasing_nil bound
      | cons next rest => exact hinc.cons hline

/-- There is room for so many frames above the bound. -/
theorem walkFrames_isSome (h : 2^64 - bound.toNat ≤ fuel) :
    (walkFrames b s MachineType fuel n bound nudge).isSome := by
  induction fuel generalizing n bound nudge with
  | zero =>
    have hlt := bound.toNat_lt
    omega
  | succ fuel ih =>
    rcases walkFrames_succ b s MachineType n bound nudge with ⟨stopped,-,hstop⟩ | ⟨line,hline,hgo⟩
    · rw [hstop]
      rfl
    · rw [hgo,Option.isSome_map]
      have hup : bound.toNat < line.StackFrame.AddrStack.toNat := hline
      exact ih (by omega)

theorem walkFrames_mono (h : walkFrames b s MachineType fuel n bound nudge = some frames)
    {fuel' : ℕ} (hle : fuel ≤ fuel') :
    walkFrames b s MachineType fuel' n bound nudge = some frames := by
  induction fuel generalizing n bound nudge frames fuel' with
  | zero => simp [walkFrames] at h
  | succ fuel ih =>
    obtain ⟨k,rfl⟩ : ∃ k, fuel' = k + 1 := ⟨fuel' - 1,by omega⟩
    rcases walkFrames_succ b s MachineType n bound nudge with ⟨stopped,-,hstop⟩ | ⟨line,-,hgo⟩
    · rw [hstop] at h ⊢
      exact h
    · rw [hgo] at h ⊢
      obtain ⟨rest,hrest,rfl⟩ := Option.map_eq_some_iff.mp h
      rw [ih hrest (Nat.le_of_succ_le_succ hle)]
      rfl

/-- The back-trace ends after at most as many frames as there are stack offsets above the
bound, whatever frames are supplied, and all offsets but the last increase. -/
theorem back_trace_ends (b : Build) (s : StackAnswers) (pContext : Context) :
    ∃ frames, (∀ fuel, 2^64 - pContext.PrevFrameStackOffset.toNat ≤ fuel →
        dumpStack b s fuel pContext = some frames) ∧
      frames.length ≤ 2^64 - pContext.PrevFrameStackOffset.toNat ∧
      Increasing pContext.PrevFrameStackOffset frames.dropLast := by
  have hsome : (dumpStack b s (2^64 - pContext.PrevFrameStackOffset.toNat) pContext).isSome :=
    walkFrames_isSome (Nat.le_refl _)
  obtain ⟨frames,hframes⟩ := Option.isSome_iff_exists.mp hsome
  obtain ⟨hinc,hlen⟩ := walkFrames_increasing hframes
  exact ⟨frames,fun fuel hle => walkFrames_mono hframes hle,hlen,hinc⟩

end DrMingw
