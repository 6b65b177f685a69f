import DrMingw.Minidumps

/-! Every use the loop makes of a `PROCESS_INFO` or a `THREAD_INFO`, in order, against
the entries present at that moment. -/
namespace DrMingw
namespace DebugLoop

/-- What is done with the entry of the event's process in `g_Processes`. -/
inductive Access
  /-- `g_Processes[dwProcessId]`; `fresh` when the event is to make the entry. -/
  | process (fresh : Bool)
  /-- `pProcessInfo->Threads[dwThreadId]`. -/
  | thread (dwThreadId : DWORD) (fresh : Bool)
  /-- A member of `*pProcessInfo` is read or written. -/
  | useProcess
  /-- The `THREAD_INFO` of a thread is read or written. -/
  | useThread (dwThreadId : DWORD)
  | eraseThread (dwThreadId : DWORD)
  | eraseProcess

/-- The entry of a process: the threads it has entries for, if it exists. -/
abbrev Entry := Option (Set DWORD)

def Access.perform (e : Entry) : Access → Entry
  | .process _ => some (e.getD ∅)
  | .thread dwThreadId _ => e.map (insert dwThreadId)
  | .useProcess => e
  | .useThread _ => e
  | .eraseThread dwThreadId => e.map (· \ {dwThreadId})
  | .eraseProcess => none

/-- What is used is there, and what is looked up is there unless it is to be made. -/
def Access.Present (e : Entry) : Access → Prop
  | .process fresh => fresh = true ∨ e.isSome = true
  | .thread dwThreadId fresh => ∃ ts, e = some ts ∧ (fresh = true ∨ dwThreadId ∈ ts)
  | .useProcess => e.isSome = true
  | .useThread dwThreadId => ∃ ts, e = some ts ∧ dwThreadId ∈ ts
  | .eraseThread _ => e.isSome = true
  | .eraseProcess => True

def accessMachine : Machine Entry Access Empty where
  step e x := (x.perform e,[])

def ProcessInfo.keys (p : ProcessInfo) : Set DWORD := {tid | tid ∈ p.Threads}

/-- The tests of the two flags, and the thread resumed on the first breakpoint. -/
def firstChanceAccesses (o : DebugOptions) (code : DWORD) (p : ProcessInfo) : List Access :=
  if code = STATUS_BREAKPOINT then
    .useProcess ::
      if p.fBreakpointSignalled then []
      else .useProcess ::
        if o.dwThreadId = 0 then []
        else [.thread o.dwThreadId false,.useThread o.dwThreadId]
  else if code = STATUS_WX86_BREAKPOINT then
    .useProcess :: if p.fWowBreakpointSignalled then [] else [.useProcess]
  else []

/-- One turn of the thread loop of an exception report. -/
def threadAccesses (a : Answers) (tid : DWORD) (record : ExceptionRecord) (dwFirstChance : Bool)
    (hProcess : HANDLE) (th : DWORD × HANDLE) : List Access :=
  .useThread th.1 ::
    if th.1 ≠ tid ∧ dumpsAllThreads record.ExceptionCode = false then []
    else
      .useProcess ::
        match getThreadContext a hProcess th.2 with
        | none => []
        | some _ => .useProcess :: if dwFirstChance then [] else [.useProcess]

def exceptionAccesses (o : DebugOptions) (a : Answers) (tid : DWORD) (record : ExceptionRecord)
    (dwFirstChance : Bool) (p : ProcessInfo) : List Access :=
  let f := if dwFirstChance then onFirstChance o a record.ExceptionCode p
    else (p,[],.report DBG_EXCEPTION_NOT_HANDLED)
  (if dwFirstChance then firstChanceAccesses o record.ExceptionCode p else []) ++
    match f.2.2 with
    | .leave _ => []
    | .report _ =>
      .useProcess ::
        f.1.Threads.toList.flatMap (threadAccesses a tid record dwFirstChance f.1.hProcess) ++
          if dwFirstChance then [] else [.useProcess]

/-- The uses of a thread's stack dump on an abnormal exit. -/
def exitAccesses (fTerminating : Bool) (tid dwExitCode : DWORD) : List Access :=
  if fTerminating = false ∧ isAbnormalExitCode dwExitCode = true then
    [.thread tid false,.useProcess,.useThread tid]
  else []

/-- The uses made while one event is handled; `p` is the record it finds. -/
def accesses (o : DebugOptions) (d : Delivery) (fTerminating : Bool) (p : ProcessInfo) :
    List Access :=
  match d.u with
  | .EXCEPTION record first =>
    .process false :: exceptionAccesses o d.answers d.dwThreadId record first p
  | .CREATE_THREAD _ => [.process false,.thread d.dwThreadId true,.useThread d.dwThreadId]
  | .CREATE_PROCESS .. =>
    [.process true,.useProcess,.thread d.dwThreadId true,.useThread d.dwThreadId]
  | .EXIT_THREAD code =>
    .process false :: exitAccesses fTerminating d.dwThreadId code ++ [.eraseThread d.dwThreadId]
  | .EXIT_PROCESS code =>
    .process false :: exitAccesses fTerminating d.dwThreadId code ++
      (if fTerminating = false ∧ isAbnormalExitCode code = true then [.useProcess] else []) ++
      -- the argument of `SymCleanup` is read through the pointer kept from before
      [.eraseProcess,.useProcess]
  | .LOAD_DLL .. => [.process false,.useProcess]
  | .UNLOAD_DLL _ => [.process false,.useProcess]
  | .OUTPUT_DEBUG_STRING .. => if o.no_debug_string then [] else [.process false,.useProcess]
  | .RIP => []
  | .other _ => []

/-- While the event is handled every use finds its record, and `SymCleanup` is given
the handle that the `CREATE_PROCESS` of the instance delivered. -/
structure UsesSound (o : DebugOptions) (pre : List Delivery) (d : Delivery) : Prop where
  present : accessMachine.Along Access.Present
    ((loopAfter o pre).g_Processes[d.dwProcessId]?.map ProcessInfo.keys)
    (accesses o d (loopAfter o pre).fTerminating ((loopAfter o pre).recordOf d.dwProcessId))
  cleanup : ∀ pid h, (pid,Action.SymCleanup h) ∈ (turn o (loopAfter o pre) d).2 →
    ∃ l, live pre d.dwProcessId = some l ∧ h = some l.hProcess

variable {o : DebugOptions} {d : Delivery} {p : ProcessInfo}

theorem mem_keys {t : DWORD} : t ∈ p.keys ↔ t ∈ p.Threads := Iff.rfl

theorem keys_insert (p : ProcessInfo) (tid : DWORD) (h : HANDLE) :
    ({ p with Threads := p.Threads.insert tid h } : ProcessInfo).keys = insert tid p.keys := by
  ext t
  simp only [mem_keys,Set.mem_insert_iff,Std.ExtTreeMap.mem_insert,
    Std.LawfulEqCmp.compare_eq_iff_eq]
  exact or_congr_left eq_comm

theorem keys_erase (p : ProcessInfo) (tid : DWORD) :
    ({ p with Threads := p.Threads.erase tid } : ProcessInfo).keys = p.keys \ {tid} := by
  ext t
  simp only [mem_keys,Set.mem_sdiff,Set.mem_singleton_iff,Std.ExtTreeMap.mem_erase,ne_eq,
    Std.LawfulEqCmp.compare_eq_iff_eq]
  rw [and_comm,eq_comm]

theorem keys_insertIfNew (p : ProcessInfo) (tid : DWORD) (h : HANDLE) :
    ({ p with Threads := p.Threads.insertIfNew tid h } : ProcessInfo).keys =
      insert tid p.keys := by
  ext t
  simp only [mem_keys,Set.mem_insert_iff,Std.ExtTreeMap.mem_insertIfNew,
    Std.LawfulEqCmp.compare_eq_iff_eq]
  exact or_congr_left eq_comm

/-- A use that changes no entry. -/
def Access.Keeps (K : Set DWORD) : Access → Prop
  | .process _ | .useProcess => True
  | .thread tid _ | .useThread tid => tid ∈ K
  | .eraseThread _ | .eraseProcess => False

theorem perform_of_keeps {K : Set DWORD} {x : Access} (h : x.Keeps K) :
    x.perform (some K) = some K ∧ x.Present (some K) := by
  cases x with
  | process fresh => exact ⟨rfl,.inr rfl⟩
  | thread tid fresh => exact ⟨congrArg some (Set.insert_eq_of_mem h),K,rfl,.inr h⟩
  | useProcess => exact ⟨rfl,rfl⟩
  | useThread tid => exact ⟨rfl,K,rfl,h⟩
  | eraseThread tid => exact absurd h id
  | eraseProcess => exact absurd h id

/-- A stretch of uses that all find what they use leaves the entry alone. -/
theorem replay_of_keeps {K : Set DWORD} {as : List Access} (h : ∀ x ∈ as, x.Keeps K) :
    accessMachine.Along Access.Present (some K) as ∧ accessMachine.after (some K) as = some K := by
  induction as with
  | nil => exact ⟨trivial,rfl⟩
  | cons x as ih =>
    obtain ⟨hp,hx⟩ := perform_of_keeps (h x List.mem_cons_self)
    have hn : accessMachine.next (some K) x = some K := hp
    have hh := ih fun y hy => h y (List.mem_cons_of_mem x hy)
    refine ⟨⟨hx,?_⟩,?_⟩
    · rw [hn]
      exact hh.1
    · rw [Machine.after_cons,hn]
      exact hh.2

theorem keys_threadsAfter (o : DebugOptions) (code : DWORD) (p : ProcessInfo) :
    ({ p with Threads := threadsAfter o code p } : ProcessInfo).keys =
      if code = STATUS_BREAKPOINT ∧ p.fBreakpointSignalled = false ∧ o.dwThreadId ≠ 0 then
        insert o.dwThreadId p.keys
      else p.keys := by
  simp only [threadsAfter]
  split
  · exact keys_insertIfNew ..
  · rfl

@[simp] theorem next_access (e : Entry) (x : Access) : accessMachine.next e x = x.perform e := rfl

theorem after_uses {as : List Access} (h : ∀ x ∈ as, x = .useProcess ∨ ∃ tid, x = .useThread tid)
    (e : Entry) : accessMachine.after e as = e := by
  induction as with
  | nil => rfl
  | cons x as ih =>
    have hx : x.perform e = e := by
      rcases h x List.mem_cons_self with rfl | ⟨tid,rfl⟩ <;> rfl
    rw [Machine.after_cons,next_access,hx]
    exact ih fun y hy => h y (List.mem_cons_of_mem x hy)

theorem threadAccesses_uses (a : Answers) (tid : DWORD) (record : ExceptionRecord) (first : Bool)
    (hProcess : HANDLE) (th : DWORD × HANDLE) :
    ∀ x ∈ threadAccesses a tid record first hProcess th,
      x = .useProcess ∨ x = .useThread th.1 := by
  simp only [threadAccesses]
  split
  · simp
  · split
    · simp
    · cases first <;> simp

theorem after_firstChance (o : DebugOptions) (code : DWORD) (p : ProcessInfo) :
    accessMachine.after (some p.keys) (firstChanceAccesses o code p) =
      some ({ p with Threads := threadsAfter o code p } : ProcessInfo).keys := by
  rw [keys_threadsAfter]
  simp only [firstChanceAccesses]
  by_cases hc : code = STATUS_BREAKPOINT
  · by_cases hf : p.fBreakpointSignalled = true
    · simp [hc,hf,Access.perform]
    · by_cases h0 : o.dwThreadId = 0
      · simp [hc,hf,h0,Access.perform]
      · simp [hc,hf,h0,Access.perform]
  · have hn : ¬(code = STATUS_BREAKPOINT ∧ p.fBreakpointSignalled = false ∧ o.dwThreadId ≠ 0) :=
      fun h => hc h.1
    rw [if_neg hc,if_neg hn]
    refine after_uses (fun x hx => .inl ?_) _
    split at hx
    · split at hx <;> simpa using hx
    · simp at hx

/-- The replay of the uses made about an exception ends with the threads of the record
that it leaves. -/
theorem after_exception (o : DebugOptions) (a : Answers) (tid : DWORD)
    (record : ExceptionRecord) (first : Bool) (p : ProcessInfo) :
    accessMachine.after (some p.keys) (exceptionAccesses o a tid record first p) =
      some (if first then (onFirstChance o a record.ExceptionCode p).1 else p).keys := by
  have hrest (v : Verdict) (g : ProcessInfo) (e : Entry) : accessMachine.after e
      (match v with
        | .leave _ => []
        | .report _ => .useProcess ::
          g.Threads.toList.flatMap (threadAccesses a tid record first g.hProcess) ++
            if first then [] else [.useProcess]) = e := by
    refine after_uses (fun x hx => ?_) e
    cases v with
    | leave status => simp at hx
    | report status =>
      simp only [List.cons_append,List.mem_cons,List.mem_append,List.mem_flatMap] at hx
      rcases hx with rfl | ⟨th,-,hx⟩ | hx
      · exact .inl rfl
      · exact (threadAccesses_uses a tid record first g.hProcess th x hx).imp_right fun h => ⟨_,h⟩
      · cases first <;> simp at hx
        exact .inl hx
  simp only [exceptionAccesses,Machine.after_append,hrest]
  cases first with
  | false => rfl
  | true =>
    simp only [if_true]
    rw [after_firstChance,onFirstChance_record]
    rfl

/-- The replay of all uses ends with the entry the handler leaves. -/
theorem after_accesses (o : DebugOptions) (d : Delivery) (fT : Bool) (q : Option ProcessInfo) :
    accessMachine.after (q.map ProcessInfo.keys) (accesses o d fT (q.getD {})) =
      ((handle o d fT (q.getD {})).record.entry q).map ProcessInfo.keys := by
  have hstart (fresh : Bool) : Access.perform (q.map ProcessInfo.keys) (.process fresh) =
      some (q.getD {}).keys := by
    cases q with
    | none =>
      have h0 : ({} : ProcessInfo).keys = ∅ := by
        ext t
        simp [mem_keys]
      simp [Access.perform,h0]
    | some p => rfl
  have hexit (code : DWORD) (K : Set DWORD) :
      accessMachine.after (some K) (exitAccesses fT d.dwThreadId code) =
        some (if fT = false ∧ isAbnormalExitCode code = true then insert d.dwThreadId K else K) := by
    simp only [exitAccesses]
    split <;> rfl
  cases hu : d.u with
  | EXCEPTION record first =>
    simp only [accesses,hu,Machine.after_cons,next_access,hstart,after_exception,handle,
      onException_record,RecordChange.entry,Option.map_some]
    cases first <;> rfl
  | CREATE_PROCESS hFile hProcess hThread base =>
    simp only [accesses,hu,Machine.after_cons,next_access,hstart,handle,onCreateProcess]
    split <;> exact congrArg some (keys_insert _ _ _).symm
  | CREATE_THREAD hThread =>
    simp only [accesses,hu,Machine.after_cons,next_access,hstart,handle]
    exact congrArg some (keys_insert _ _ _).symm
  | EXIT_THREAD code =>
    simp only [accesses,hu,List.cons_append,Machine.after_cons,next_access,hstart,
      Machine.after_append,hexit,handle,onExitThread,RecordChange.entry,Option.map_some,keys_erase]
    split <;> simp [Access.perform]
  | EXIT_PROCESS code =>
    have hend (e : Entry) : accessMachine.after e [.eraseProcess,.useProcess] = none := rfl
    simp [accesses,hu,Machine.after_append,hend,handle,onExitProcess,RecordChange.entry]
  | OUTPUT_DEBUG_STRING data len =>
    simp only [accesses,hu,handle,onOutputDebugString]
    split
    · rfl
    · simp only [Machine.after_cons,next_access,hstart]
      rfl
  | LOAD_DLL hFile base =>
    simp only [accesses,hu,Machine.after_cons,next_access,hstart,handle,onLoadDll]
    rfl
  | UNLOAD_DLL base =>
    simp only [accesses,hu,Machine.after_cons,next_access,hstart,handle]
    rfl
  | RIP | other => simp [accesses,hu,handle,RecordChange.entry]

/-- The thread named by the options, where it is asked for, has an entry. -/
def NamesEntry (o : DebugOptions) (code : DWORD) (p : ProcessInfo) : Prop :=
  code = STATUS_BREAKPOINT → p.fBreakpointSignalled = false →
    o.dwThreadId = 0 ∨ o.dwThreadId ∈ p.keys

theorem keys_onFirstChance (a : Answers) {code : DWORD} (h : NamesEntry o code p) :
    (onFirstChance o a code p).1.keys = p.keys := by
  have hr : (onFirstChance o a code p).1.keys =
      ({ p with Threads := threadsAfter o code p } : ProcessInfo).keys := by
    rw [onFirstChance_record]
    rfl
  rw [hr,keys_threadsAfter]
  split
  · next hc => exact Set.insert_eq_of_mem ((h hc.1 hc.2.1).resolve_left hc.2.2)
  · rfl

theorem firstChanceAccesses_keep {code : DWORD} (h : NamesEntry o code p) :
    ∀ x ∈ firstChanceAccesses o code p, x.Keeps p.keys := by
  intro x hx
  simp only [firstChanceAccesses] at hx
  by_cases hc : code = STATUS_BREAKPOINT
  · cases hf : p.fBreakpointSignalled with
    | true =>
      obtain rfl : x = .useProcess := by simpa [hc,hf] using hx
      trivial
    | false =>
      by_cases h0 : o.dwThreadId = 0
      · obtain rfl : x = .useProcess := by simpa [hc,hf,h0] using hx
        trivial
      · have hin := (h hc hf).resolve_left h0
        have hx' : x = .useProcess ∨ x = .thread o.dwThreadId false ∨
            x = .useThread o.dwThreadId := by simpa [hc,hf,h0] using hx
        rcases hx' with rfl | rfl | rfl
        · trivial
        · exact hin
        · exact hin
  · rw [if_neg hc] at hx
    split at hx
    · obtain rfl : x = .useProcess := by split at hx <;> simpa using hx
      trivial
    · simp at hx

/-- An exception finds every thread it asks for: those of the record, and the one the
options name. -/
theorem exceptionAccesses_keep {a : Answers} {tid : DWORD} {record : ExceptionRecord}
    {first : Bool} (h : first = true → NamesEntry o record.ExceptionCode p) :
    ∀ x ∈ exceptionAccesses o a tid record first p, x.Keeps p.keys := by
  have hkeys : (if first then onFirstChance o a record.ExceptionCode p
      else (p,[],.report DBG_EXCEPTION_NOT_HANDLED)).1.keys = p.keys := by
    cases first with
    | false => rfl
    | true => exact keys_onFirstChance a (h rfl)
  intro x hx
  simp only [exceptionAccesses,List.mem_append] at hx
  rcases hx with hx | hx
  · cases first with
    | false => simp at hx
    | true => exact firstChanceAccesses_keep (h rfl) x hx
  · split at hx
    · simp at hx
    · simp only [List.cons_append,List.mem_cons,List.mem_append,List.mem_flatMap] at hx
      rcases hx with rfl | ⟨th,hth,hx⟩ | hx
      · trivial
      · rcases threadAccesses_uses _ _ _ _ _ th x hx with rfl | rfl
        · trivial
        · have hg := Std.ExtTreeMap.mem_toList_iff_getElem?_eq_some.mp hth
          rw [← hkeys]
          exact Std.ExtTreeMap.mem_iff_isSome_getElem?.mpr (by rw [hg]; rfl)
      · cases first <;> simp at hx
        subst hx
        trivial

theorem symCleanup_not_mem_writeDump (a : Answers) (pid : DWORD) (p : ProcessInfo)
    (x : Option MinidumpException) (h : Option HANDLE) :
    Action.SymCleanup h ∉ deeds (writeDump o a pid p x).2 := by
  rw [deeds_writeDump]
  split
  · simp
  · split <;> simp

/-- Symbols are given up when a process ends, and only then. -/
theorem symCleanup_mem_turn {s : LoopState} {pid : DWORD} {h : Option HANDLE}
    (hm : (pid,Action.SymCleanup h) ∈ (turn o s d).2) : d.u.isExitProcess = true := by
  have hd : Action.SymCleanup h ∈
      deeds (handle o d s.fTerminating (s.recordOf d.dwProcessId)).actions := by
    have hh : Action.SymCleanup h ∈
        (handle o d s.fTerminating (s.recordOf d.dwProcessId)).actions ∧ d.dwProcessId = pid := by
      simp only [turn] at hm
      split at hm <;> simpa [LoopState.recordOf] using hm
    exact List.mem_filter.mpr ⟨hh.1,rfl⟩
  rw [deeds_handle] at hd
  cases hu : d.u with
  | EXIT_PROCESS code => rfl
  | EXCEPTION record first =>
    simp only [hu,deeds_onException] at hd
    cases first with
    | true => simp at hd
    | false =>
      have hno (x : Option MinidumpException) :=
        symCleanup_not_mem_writeDump (o:=o) d.answers d.dwProcessId
          (s.recordOf d.dwProcessId) x h
      cases hf : firstContext d.answers (s.recordOf d.dwProcessId).hProcess d.dwThreadId
          record.ExceptionCode (s.recordOf d.dwProcessId).Threads.toList with
      | none => simp [hf] at hd
      | some context => simp [hf,hno] at hd
  | _ => simp [hu] at hd

theorem exitAccesses_keep {K : Set DWORD} {tid : DWORD} (h : tid ∈ K) (fT : Bool) (code : DWORD) :
    ∀ x ∈ exitAccesses fT tid code, x.Keeps K := by
  intro x hx
  simp only [exitAccesses] at hx
  split at hx
  · have hx' : x = .thread tid false ∨ x = .useProcess ∨ x = .useThread tid := by
      simpa using hx
    rcases hx' with rfl | rfl | rfl
    · exact h
    · trivial
    · exact h
  · simp at hx

/-- The thread an event comes from has its entry. -/
theorem mem_keys_of_live {t : LiveTable} {l : LiveProcess} {es : List Delivery}
    (hl : t d.dwProcessId = some l) (hr : Reflects l es p)
    (h : ∃ l, t d.dwProcessId = some l ∧ (l.threads d.dwThreadId).isSome) :
    d.dwThreadId ∈ p.keys := by
  obtain ⟨l',hl',ht⟩ := h
  obtain rfl : l = l' := Option.some.inj (hl.symm.trans hl')
  obtain ⟨x,hx⟩ := Option.isSome_iff_exists.mp ht
  exact Std.ExtTreeMap.mem_iff_isSome_getElem?.mpr (by rw [hr.threads _ _ hx]; rfl)

/-- The thread of the options that is live has its entry. -/
theorem namesEntry_of_live {t : LiveTable} {l : LiveProcess} {es : List Delivery}
    {record : ExceptionRecord} (hu : d.u = .EXCEPTION record true)
    (hl : t d.dwProcessId = some l) (hr : Reflects l es p) (hopt : NamesLiveThread o t d) :
    NamesEntry o record.ExceptionCode p := by
  intro hc hf
  refine (hopt (by simp [hu,DebugInfo.isBreakpoint,hc])).imp_right fun h => ?_
  have ha : l.attached = false := by rw [hr.attached,← hr.breakpoint,hf]
  obtain ⟨x,hx⟩ := Option.isSome_iff_exists.mp (h l hl ha)
  exact Std.ExtTreeMap.mem_iff_isSome_getElem?.mpr (by rw [hr.threads _ _ hx]; rfl)

/-- All uses made by an event of a live process that does not end it. -/
theorem accesses_present {t : LiveTable} {l : LiveProcess} {es : List Delivery}
    (hd : Legal t d) (hl : t d.dwProcessId = some l) (hr : Reflects l es p)
    (hopt : NamesLiveThread o t d) (hx : d.u.isExitProcess = false) (fT : Bool) :
    accessMachine.Along Access.Present (some p.keys) (accesses o d fT p) := by
  cases hu : d.u with
  | CREATE_PROCESS hFile hProcess hThread base =>
    exact absurd hu (not_createProcess_of_isSome hd (Option.isSome_iff_exists.mpr ⟨l,hl⟩) _ _ _ _)
  | EXIT_PROCESS code => simp [hu,DebugInfo.isExitProcess] at hx
  | EXCEPTION record first =>
    simp only [accesses,hu]
    refine ⟨.inr rfl,(replay_of_keeps (exceptionAccesses_keep fun hf => ?_)).1⟩
    subst hf
    exact namesEntry_of_live hu hl hr hopt
  | CREATE_THREAD hThread =>
    simp only [accesses,hu]
    exact ⟨.inr rfl,⟨_,rfl,.inl rfl⟩,⟨_,rfl,Set.mem_insert ..⟩,trivial⟩
  | EXIT_THREAD code =>
    have hk := mem_keys_of_live hl hr (by simpa [Legal,hu] using hd)
    have he := replay_of_keeps (exitAccesses_keep hk fT code)
    simp only [accesses,hu,List.cons_append]
    refine ⟨.inr rfl,Machine.along_append.mpr ⟨he.1,?_⟩⟩
    have hn : accessMachine.next (some p.keys) (.process false) = some p.keys := rfl
    rw [hn,he.2]
    exact ⟨rfl,trivial⟩
  | LOAD_DLL hFile base =>
    simp only [accesses,hu]
    exact ⟨.inr rfl,rfl,trivial⟩
  | UNLOAD_DLL base =>
    simp only [accesses,hu]
    exact ⟨.inr rfl,rfl,trivial⟩
  | OUTPUT_DEBUG_STRING data len =>
    simp only [accesses,hu]
    split
    · trivial
    · exact ⟨.inr rfl,rfl,trivial⟩
  | RIP | other =>
    simp only [accesses,hu]
    trivial

/-- The argument of `SymCleanup` is read from an entry that has just been erased. -/
theorem accesses_exit (hx : d.u.isExitProcess = true) (fT : Bool) (e : Entry) :
    ¬accessMachine.Along Access.Present e (accesses o d fT p) := by
  cases hu : d.u with
  | EXIT_PROCESS code =>
    intro h
    simp only [accesses,hu] at h
    have hend := (Machine.along_append.mp h).2.2.1
    exact absurd hend Bool.false_ne_true
  | _ => simp [hu,DebugInfo.isExitProcess] at hx

/-- In any handled run of any processes, an event makes sound use of the records
exactly when it is not the end of its process. -/
theorem uses_sound_iff (ds : List Delivery) (hlegal : LegalStream ds) (h : Handled o ds)
    (hopt : Machine.AtEach (fun pre d => NamesLiveThread o (live pre) d) ds) :
    Machine.AtEach (fun pre d => UsesSound o pre d ↔ d.u.isExitProcess = false) ds := by
  rintro pre d post rfl
  have hh : Handled o pre := (Machine.along_append.mp h).1
  have hlp : LegalStream pre := (Machine.along_append.mp hlegal).1
  have hd : Legal (live pre) d := hlegal.at_split
  constructor
  · intro hs
    by_contra hx
    exact accesses_exit (by simpa using hx) _ _ hs.present
  · intro hx
    refine ⟨?_,fun pid x hm => ?_⟩
    · cases hl : live pre d.dwProcessId with
      | none =>
        cases hu : d.u with
        | CREATE_PROCESS hFile hProcess hThread base =>
          simp only [accesses,hu]
          exact ⟨.inl rfl,rfl,⟨_,rfl,.inl rfl⟩,⟨_,rfl,Set.mem_insert ..⟩,trivial⟩
        | _ =>
          have hsome := Legal.isSome hd (by simp [hu])
          simp [hl] at hsome
      | some l =>
        obtain ⟨p,es,hp,-,hr⟩ := handled_record hlp hh hl
        simp only [LoopState.recordOf,hp,Option.map_some,Option.getD_some]
        exact accesses_present hd hl hr (hopt pre d post rfl) hx _
    · have he := symCleanup_mem_turn hm
      simp [hx] at he

theorem uses_sound_shortRun :
    UsesSound {} (shortRun.take 2) ⟨7,1,.EXCEPTION ⟨STATUS_BREAKPOINT,0,[]⟩ true,{}⟩ := by
  have hlegal : LegalStream shortRun := by
    simp [LegalStream,shortRun,Machine.Along,Legal,Machine.next,liveMachine,liveAfter,noProcess,
      LiveProcess.observe,LiveProcess.setThread]
  have h : Handled {} shortRun := ⟨rfl,by decide,by decide,by decide,by decide,trivial⟩
  have hopt : Machine.AtEach (fun pre d => NamesLiveThread {} (live pre) d) shortRun :=
    fun pre d post _ _ => .inl rfl
  exact (uses_sound_iff shortRun hlegal h hopt _ _ (shortRun.drop 3) rfl).mpr rfl

/-- The end of process 7 reads the record it has erased. -/
theorem exit_reads_erased : ¬UsesSound {} (shortRun.take 4) ⟨7,1,.EXIT_PROCESS 0,{}⟩ :=
  fun h => accesses_exit rfl _ _ h.present

end DebugLoop
end DrMingw
