import DrMingw.InstanceHistory

/-! The status an exception is continued with, against the history of its process. -/
namespace DrMingw
namespace DebugLoop

/-- The status passed to the `ContinueDebugEvent` that ends a turn. -/
def continuedWith (o : DebugOptions) (s : LoopState) (d : Delivery) : Option DWORD :=
  (turn o s d).2.getLast?.bind fun x =>
    match x.2 with
    | .ContinueDebugEvent _ _ dwContinueStatus => some dwContinueStatus
    | _ => none

/-- No event of the process instance before this one is of the kind `kind`. -/
def EarliestOf (kind : DebugInfo → Bool) (pre : List Delivery) (d : Delivery) : Prop :=
  ∀ es, history pre d.dwProcessId = some es → ∀ e ∈ es, kind e.u = false

/-- The exceptions that are swallowed: first-chance ones of a few codes, a breakpoint
only as the first of its kind. -/
def Swallowed (o : DebugOptions) (pre : List Delivery) (d : Delivery) (code : DWORD)
    (dwFirstChance : Bool) : Prop :=
  dwFirstChance = true ∧
    (code = STATUS_BREAKPOINT ∧ o.breakpoint_flag = false ∧
        EarliestOf DebugInfo.isBreakpoint pre d ∨
      code = STATUS_WX86_BREAKPOINT ∧ EarliestOf DebugInfo.isWowBreakpoint pre d ∨
      code = THREAD_NAMING ∨ code = DBG_CONTROL_C ∨ code = DBG_CONTROL_BREAK)

def Verdict.status : Verdict → DWORD
  | .leave dwContinueStatus => dwContinueStatus
  | .report dwContinueStatus => dwContinueStatus

theorem turn_continuedWith {o : DebugOptions} {s : LoopState} {d : Delivery}
    (hx : (handle o d s.fTerminating (s.g_Processes[d.dwProcessId]?.getD {})).exits = false) :
    continuedWith o s d =
      some (handle o d s.fTerminating (s.g_Processes[d.dwProcessId]?.getD {})).dwContinueStatus := by
  simp [continuedWith,turn,hx]

/-- The codes that the filters after the breakpoint prologue swallow. -/
theorem filterFirstChance_status (o : DebugOptions) (a : Answers) (code : DWORD)
    (p : ProcessInfo) : (filterFirstChance o a code p).2.status =
      if code = STATUS_WX86_BREAKPOINT ∧ p.fWowBreakpointSignalled = false ∨
          code = THREAD_NAMING ∨ code = DBG_CONTROL_C ∨ code = DBG_CONTROL_BREAK
        then DBG_CONTINUE else DBG_EXCEPTION_NOT_HANDLED := by
  simp only [filterFirstChance]
  by_cases hw : code = STATUS_WX86_BREAKPOINT ∧ p.fWowBreakpointSignalled = false
  · simp [hw,Verdict.status]
  · rw [if_neg hw]
    by_cases hn : code = THREAD_NAMING
    · rw [if_pos hn,if_pos (.inr (.inl hn))]
      rfl
    · rw [if_neg hn]
      by_cases hc : code = DBG_CONTROL_C ∨ code = DBG_CONTROL_BREAK
      · rw [if_pos hc,if_pos (.inr (.inr hc))]
        rfl
      · have hall : ¬(code = STATUS_WX86_BREAKPOINT ∧ p.fWowBreakpointSignalled = false ∨
            code = THREAD_NAMING ∨ code = DBG_CONTROL_C ∨ code = DBG_CONTROL_BREAK) := by tauto
        rw [if_neg hc,if_neg hall]
        split
        · rfl
        · split <;> rfl

theorem onFirstChance_status (o : DebugOptions) (a : Answers) (code : DWORD) (p : ProcessInfo) :
    (onFirstChance o a code p).2.2.status =
      if code = STATUS_BREAKPOINT ∧ o.breakpoint_flag = false ∧ p.fBreakpointSignalled = false ∨
          code = STATUS_WX86_BREAKPOINT ∧ p.fWowBreakpointSignalled = false ∨
          code = THREAD_NAMING ∨ code = DBG_CONTROL_C ∨ code = DBG_CONTROL_BREAK
        then DBG_CONTINUE else DBG_EXCEPTION_NOT_HANDLED := by
  simp only [onFirstChance]
  by_cases hb : code = STATUS_BREAKPOINT ∧ p.fBreakpointSignalled = false
  · rw [if_pos hb]
    by_cases hf : o.breakpoint_flag = false
    · simp [hb,hf,Verdict.status]
    · simp only [if_neg hf,filterFirstChance_status,signalBreakpoint_record]
      simp [hf]
  · rw [if_neg hb,filterFirstChance_status]
    have hb' : ¬(code = STATUS_BREAKPOINT ∧ o.breakpoint_flag = false ∧
        p.fBreakpointSignalled = false) := fun h => hb ⟨h.1,h.2.2⟩
    simp only [hb',false_or]

theorem onException_status (o : DebugOptions) (a : Answers) (pid tid : DWORD)
    (record : ExceptionRecord) (first fT : Bool) (p : ProcessInfo) :
    (onException o a pid tid record first fT p).dwContinueStatus =
      if first then (onFirstChance o a record.ExceptionCode p).2.2.status
      else DBG_EXCEPTION_NOT_HANDLED := by
  simp only [onException]
  cases first with
  | false => rfl
  | true =>
    simp only [if_true]
    split <;> next h => simp [h,Verdict.status]

variable {o : DebugOptions}

/-- The flags of a record tell whether an event is the earliest of its kind. -/
theorem Reflects.earliest {l : LiveProcess} {es pre : List Delivery} {p : ProcessInfo}
    {d : Delivery} (hr : Reflects l es p) (hes : history pre d.dwProcessId = some es) :
    (p.fBreakpointSignalled = false ↔ EarliestOf DebugInfo.isBreakpoint pre d) ∧
      (p.fWowBreakpointSignalled = false ↔ EarliestOf DebugInfo.isWowBreakpoint pre d) := by
  simp [hr.breakpoint,hr.wowBreakpoint,EarliestOf,hes]

/-- Over any handled stream of any processes, an exception is continued with
`DBG_CONTINUE` if it is one to be swallowed and as not handled if it is not. -/
theorem swallowed_iff (ds : List Delivery) (hlegal : LegalStream ds) (h : Handled o ds) :
    Machine.AtEach (fun pre d => ∀ record first, d.u = .EXCEPTION record first →
      (continuedWith o (loopAfter o pre) d = some DBG_CONTINUE ↔
        Swallowed o pre d record.ExceptionCode first) ∧
      (continuedWith o (loopAfter o pre) d = some DBG_EXCEPTION_NOT_HANDLED ↔
        ¬Swallowed o pre d record.ExceptionCode first)) ds := by
  rintro pre d post rfl record first hu
  have hh : Handled o pre := (Machine.along_append.mp h).1
  have hlp : LegalStream pre := (Machine.along_append.mp hlegal).1
  have hd : Legal (live pre) d := hlegal.at_split
  obtain ⟨l,hl⟩ := Option.isSome_iff_exists.mp (hd.isSome (by simp [hu]))
  obtain ⟨p,es,hp,hes,hr⟩ := handled_record hlp hh hl
  obtain ⟨hbp,hwow⟩ := hr.earliest hes
  obtain ⟨p',-,-,hx⟩ := onException_store o d.answers d.dwProcessId d.dwThreadId record first
    (loopAfter o pre).fTerminating p
  have hne : DBG_CONTINUE ≠ DBG_EXCEPTION_NOT_HANDLED := by decide
  rw [turn_continuedWith (by simpa [handle,hu,hp] using hx)]
  simp only [handle,hu,hp,Option.getD_some,onException_status,onFirstChance_status,Swallowed,
    ← hbp,← hwow]
  cases first with
  | false => simp [Ne.symm hne]
  | true =>
    simp only [if_true,Option.some_inj,true_and]
    split
    · next hs => simp only [hs,hne,not_true,and_self]
    · next hs => simp only [hs,Ne.symm hne,not_false_iff,and_self]

/-- Process 7 attaches, reaches a second breakpoint and names a thread. -/
def attachRun : List Delivery :=
  [⟨7,1,.CREATE_PROCESS 0 40 41 0x400000,{}⟩,⟨7,1,.EXCEPTION ⟨STATUS_BREAKPOINT,0,[]⟩ true,{}⟩,
    ⟨7,1,.EXCEPTION ⟨STATUS_BREAKPOINT,0,[]⟩ true,{}⟩,⟨7,1,.EXCEPTION ⟨THREAD_NAMING,0,[]⟩ true,{}⟩]

theorem swallowed_attachRun :
    continuedWith {} (loopAfter {} (attachRun.take 1)) attachRun[1] = some DBG_CONTINUE ∧
      ¬Swallowed {} (attachRun.take 2) attachRun[2] STATUS_BREAKPOINT true := by
  have hlegal : LegalStream attachRun := by
    simp [LegalStream,attachRun,Machine.Along,Legal,Machine.next,liveMachine,liveAfter,noProcess,
      LiveProcess.observe]
  have h : Handled {} attachRun := ⟨rfl,by decide,by decide,by decide,trivial⟩
  have hall := swallowed_iff attachRun hlegal h
  constructor
  · refine (hall _ _ (attachRun.drop 2) rfl ⟨STATUS_BREAKPOINT,0,[]⟩ true rfl).1.mpr ?_
    simp [Swallowed,EarliestOf,attachRun,history,Machine.after,Machine.next,historyMachine,
      historyAfter,DebugInfo.isBreakpoint]
  · refine (hall _ _ (attachRun.drop 3) rfl ⟨STATUS_BREAKPOINT,0,[]⟩ true rfl).2.mp ?_
    decide

end DebugLoop
end DrMingw
