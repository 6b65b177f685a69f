import DrMingw.ProcessIsolation

/-! A record of `g_Processes` against the events its process instance has reported
since its `CREATE_PROCESS`. -/
namespace DrMingw
namespace DebugLoop

/-- The events of each live process instance, in order. -/
abbrev HistoryTable := DWORD → Option (List Delivery)

def historyAfter (h : Option (List Delivery)) (d : Delivery) : Option (List Delivery) :=
  match d.u with
  | .CREATE_PROCESS .. => some [d]
  | .EXIT_PROCESS _ => none
  | _ => h.map (· ++ [d])

def historyMachine : Machine HistoryTable Delivery Empty where
  step t d := (Function.update t d.dwProcessId (historyAfter (t d.dwProcessId) d),[])

/-- The events of the process instances live once `ds` has been reported. -/
def history (ds : List Delivery) : HistoryTable := historyMachine.after (fun _ => none) ds

/-- A first-chance breakpoint of a 32-bit process under WOW64. -/
def DebugInfo.isWowBreakpoint : DebugInfo → Bool
  | .EXCEPTION record true => record.ExceptionCode = STATUS_WX86_BREAKPOINT
  | _ => false

/-- The first context that can be read among the threads an exception report covers. -/
def firstContext (a : Answers) (hProcess : HANDLE) (tid code : DWORD)
    (threads : List (DWORD × HANDLE)) : Option CONTEXT :=
  threads.findSome? fun th =>
    if th.1 ≠ tid ∧ dumpsAllThreads code = false then none
    else getThreadContext a hProcess th.2

theorem filterFirstChance_record (o : DebugOptions) (a : Answers) (code : DWORD)
    (p : ProcessInfo) : (filterFirstChance o a code p).1 =
      { p with fWowBreakpointSignalled :=
          p.fWowBreakpointSignalled || decide (code = STATUS_WX86_BREAKPOINT) } := by
  obtain ⟨hp,ts,fB,fW,fD⟩ := p
  simp only [filterFirstChance]
  by_cases hc : code = STATUS_WX86_BREAKPOINT
  · cases fW with
    | false => simp [hc]
    | true =>
      simp only [hc,Bool.true_eq_false,and_false,if_false]
      repeat' split
      all_goals rfl
  · simp only [hc,false_and,if_false,decide_false,Bool.or_false]
    repeat' split
    all_goals rfl

theorem signalBreakpoint_record (o : DebugOptions) (a : Answers) (p : ProcessInfo) :
    (signalBreakpoint o a p).1 =
      { p with
        fBreakpointSignalled := true
        Threads := if o.dwThreadId = 0 then p.Threads
          else p.Threads.insertIfNew o.dwThreadId NULL } := by
  simp only [signalBreakpoint]
  split <;> rfl

/-- The threads a first-chance exception leaves: one may be added. -/
def threadsAfter (o : DebugOptions) (code : DWORD) (p : ProcessInfo) : ThreadInfoList :=
  if code = STATUS_BREAKPOINT ∧ p.fBreakpointSignalled = false ∧ o.dwThreadId ≠ 0 then
    p.Threads.insertIfNew o.dwThreadId NULL
  else p.Threads

theorem onFirstChance_record (o : DebugOptions) (a : Answers) (code : DWORD) (p : ProcessInfo) :
    (onFirstChance o a code p).1 =
      { p with
        Threads := threadsAfter o code p
        fBreakpointSignalled := p.fBreakpointSignalled || decide (code = STATUS_BREAKPOINT)
        fWowBreakpointSignalled :=
          p.fWowBreakpointSignalled || decide (code = STATUS_WX86_BREAKPOINT) } := by
  obtain ⟨hp,ts,fB,fW,fD⟩ := p
  have hne : STATUS_BREAKPOINT ≠ STATUS_WX86_BREAKPOINT := by decide
  simp only [onFirstChance,threadsAfter]
  by_cases hc : code = STATUS_BREAKPOINT
  · subst hc
    cases fB with
    | true => simp [filterFirstChance_record]
    | false =>
      simp only [and_self,if_true,true_and]
      split <;> simp [filterFirstChance_record,signalBreakpoint_record,hne]
  · simp [hc,filterFirstChance_record]

theorem writeDump_record (o : DebugOptions) (a : Answers) (pid : DWORD) (p : ProcessInfo)
    (x : Option MinidumpException) :
    (writeDump o a pid p x).1 = { p with fDumpWritten := true } := by
  obtain ⟨hp,ts,fB,fW,fD⟩ := p
  simp only [writeDump]
  cases fD <;> rfl

theorem firstContext_cons (a : Answers) (hProcess : HANDLE) (tid code : DWORD)
    (th : DWORD × HANDLE) (threads : List (DWORD × HANDLE)) :
    firstContext a hProcess tid code (th::threads) =
      if th.1 ≠ tid ∧ dumpsAllThreads code = false then firstContext a hProcess tid code threads
      else (getThreadContext a hProcess th.2).or (firstContext a hProcess tid code threads) := by
  simp only [firstContext,List.findSome?_cons]
  by_cases hs : th.1 ≠ tid ∧ dumpsAllThreads code = false
  · rw [if_pos hs,if_pos hs]
  · rw [if_neg hs,if_neg hs]
    cases getThreadContext a hProcess th.2 <;> rfl

/-- A report writes a dump when it is of a second chance and a context is read. -/
theorem dumpThreads_record (o : DebugOptions) (a : Answers) (pid tid : DWORD)
    (record : ExceptionRecord) (first : Bool) (threads : List (DWORD × HANDLE))
    (p : ProcessInfo) :
    (dumpThreads o a pid tid record first threads p).1 =
      { p with fDumpWritten := p.fDumpWritten ||
          (!first && (firstContext a p.hProcess tid record.ExceptionCode threads).isSome) } := by
  induction threads generalizing p with
  | nil => simp [dumpThreads,firstContext]
  | cons th threads ih =>
    rw [firstContext_cons,dumpThreads]
    by_cases hs : th.1 ≠ tid ∧ dumpsAllThreads record.ExceptionCode = false
    · rw [if_pos hs,if_pos hs]
      exact ih p
    · rw [if_neg hs,if_neg hs]
      cases hx : getThreadContext a p.hProcess th.2 with
      | none => exact ih p
      | some context =>
        cases first with
        | true => simp [ih]
        | false => simp [ih,writeDump_record]

/-- The record an exception leaves. -/
theorem onException_record (o : DebugOptions) (a : Answers) (pid tid : DWORD)
    (record : ExceptionRecord) (first fT : Bool) (p : ProcessInfo) :
    (onException o a pid tid record first fT p).record = .store
      (if first then (onFirstChance o a record.ExceptionCode p).1
        else { p with fDumpWritten := p.fDumpWritten ||
          (firstContext a p.hProcess tid record.ExceptionCode p.Threads.toList).isSome }) := by
  simp only [onException]
  cases first with
  | false => simp [dumpThreads_record]
  | true =>
    simp only [if_true]
    split <;> simp [dumpThreads_record]

/-- A record of a live process instance, as far as its events determine it. -/
structure Reflects (l : LiveProcess) (es : List Delivery) (p : ProcessInfo) : Prop where
  hProcess : p.hProcess = l.hProcess
  threads : ∀ tid h, l.threads tid = some h → p.Threads[tid]? = some h
  /-- Up to the first breakpoint no other thread is in the record. -/
  unattached : l.attached = false → ∀ tid, p.Threads[tid]? = l.threads tid
  attached : l.attached = es.any (·.u.isBreakpoint)
  breakpoint : p.fBreakpointSignalled = es.any (·.u.isBreakpoint)
  wowBreakpoint : p.fWowBreakpointSignalled = es.any (·.u.isWowBreakpoint)

variable {o : DebugOptions} {d : Delivery} {l : LiveProcess} {es : List Delivery}
  {p : ProcessInfo}

theorem insertIfNew_covers {ts : ThreadInfoList} {tid t : DWORD} {h x : HANDLE}
    (hh : ts[tid]? = some h) : (ts.insertIfNew t x)[tid]? = some h := by
  have hm : tid ∈ ts := by
    rw [Std.ExtTreeMap.mem_iff_isSome_getElem?,hh]
    rfl
  rw [Std.ExtTreeMap.getElem?_insertIfNew]
  split
  · next hc =>
    obtain ⟨he,hn⟩ := hc
    obtain rfl : t = tid := by simpa using he
    exact absurd hm hn
  · exact hh

theorem threadsAfter_covers {tid : DWORD} {h : HANDLE} (o : DebugOptions) (code : DWORD)
    (hh : p.Threads[tid]? = some h) : (threadsAfter o code p)[tid]? = some h := by
  simp only [threadsAfter]
  split
  · exact insertIfNew_covers hh
  · exact hh

theorem Reflects.exception (hr : Reflects l es p) (fT : Bool) (record : ExceptionRecord)
    (first : Bool) (hu : d.u = .EXCEPTION record first) :
    ∃ p', (onException o d.answers d.dwProcessId d.dwThreadId record first fT p).record =
        .store p' ∧ Reflects (l.observe d) (es ++ [d]) p' := by
  refine ⟨_,onException_record ..,?_⟩
  cases first with
  | false =>
    refine ⟨?_,?_,?_,?_,?_,?_⟩
    · simpa [LiveProcess.observe,hu] using hr.hProcess
    · simpa [LiveProcess.observe,hu] using hr.threads
    · simpa [LiveProcess.observe,hu,DebugInfo.isBreakpoint] using hr.unattached
    · simp [LiveProcess.observe,hu,hr.attached]
    · simpa [hu,DebugInfo.isBreakpoint] using hr.breakpoint
    · simpa [hu,DebugInfo.isWowBreakpoint] using hr.wowBreakpoint
  | true =>
    simp only [if_true,onFirstChance_record]
    refine ⟨?_,?_,?_,?_,?_,?_⟩
    · simpa [LiveProcess.observe,hu] using hr.hProcess
    · intro tid h hh
      have hl : l.threads tid = some h := by simpa [LiveProcess.observe,hu] using hh
      exact threadsAfter_covers o _ (hr.threads tid h hl)
    · intro ha tid
      obtain ⟨hfalse,hcode⟩ : l.attached = false ∧ record.ExceptionCode ≠ STATUS_BREAKPOINT := by
        simpa [LiveProcess.observe,hu,DebugInfo.isBreakpoint] using ha
      simpa [LiveProcess.observe,hu,threadsAfter,hcode] using hr.unattached hfalse tid
    · simp [LiveProcess.observe,hu,hr.attached]
    · simp [hu,DebugInfo.isBreakpoint,hr.breakpoint]
    · simp [hu,DebugInfo.isWowBreakpoint,hr.wowBreakpoint]

/-- Events that change neither threads nor flags. -/
theorem Reflects.same (hr : Reflects l es p) (hc : ∀ h, d.u ≠ .CREATE_THREAD h)
    (he : ∀ c, d.u ≠ .EXIT_THREAD c) (hx : ∀ r f, d.u ≠ .EXCEPTION r f) :
    Reflects (l.observe d) (es ++ [d]) p := by
  have hb : d.u.isBreakpoint = false := by
    cases hu : d.u with
    | EXCEPTION r f => exact absurd hu (hx r f)
    | _ => rfl
  have hw : d.u.isWowBreakpoint = false := by
    cases hu : d.u with
    | EXCEPTION r f => exact absurd hu (hx r f)
    | _ => rfl
  rw [observe_eq_self hc he hb]
  exact ⟨hr.hProcess,hr.threads,hr.unattached,by simp [hb,hr.attached],
    by simp [hb,hr.breakpoint],by simp [hw,hr.wowBreakpoint]⟩

/-- Events by which one thread comes or goes. -/
theorem Reflects.setThread (hr : Reflects l es p) {ts : ThreadInfoList} {x : Option HANDLE}
    (hts : ∀ tid, ts[tid]? = if tid = d.dwThreadId then x else p.Threads[tid]?)
    (ho : l.observe d = l.setThread d.dwThreadId x) (hb : d.u.isBreakpoint = false)
    (hw : d.u.isWowBreakpoint = false) :
    Reflects (l.observe d) (es ++ [d]) { p with Threads := ts } := by
  rw [ho]
  refine ⟨hr.hProcess,fun tid h hh => ?_,fun ha tid => ?_,
    by simp [hb,LiveProcess.setThread,hr.attached],by simp [hb,hr.breakpoint],
    by simp [hw,hr.wowBreakpoint]⟩
  · rw [hts]
    by_cases ht : tid = d.dwThreadId
    · simpa [LiveProcess.setThread,ht] using hh
    · rw [if_neg ht]
      exact hr.threads tid h (by simpa [LiveProcess.setThread,ht] using hh)
  · rw [hts]
    by_cases ht : tid = d.dwThreadId
    · simp [LiveProcess.setThread,ht]
    · simpa [LiveProcess.setThread,ht] using hr.unattached ha tid

theorem getElem?_insert_thread (ts : ThreadInfoList) (t tid : DWORD) (h : HANDLE) :
    (ts.insert t h)[tid]? = if tid = t then some h else ts[tid]? := by
  rw [Std.ExtTreeMap.getElem?_insert]
  by_cases ht : tid = t
  · subst ht
    simp
  · have ht' : t ≠ tid := fun he => ht he.symm
    simp [ht,ht']

theorem getElem?_erase_thread (ts : ThreadInfoList) (t tid : DWORD) :
    (ts.erase t)[tid]? = if tid = t then none else ts[tid]? := by
  rw [Std.ExtTreeMap.getElem?_erase]
  by_cases ht : tid = t
  · subst ht
    simp
  · have ht' : t ≠ tid := fun he => ht he.symm
    simp [ht,ht']

/-- An event of a live process instance keeps its record in step with its events. -/
theorem Reflects.handle (hr : Reflects l es p) (fT : Bool)
    (hc : ∀ hFile hProcess hThread base, d.u ≠ .CREATE_PROCESS hFile hProcess hThread base)
    (hx : d.u.isExitProcess = false) :
    ∃ p', (handle o d fT p).record.entry (some p) = some p' ∧
      Reflects (l.observe d) (es ++ [d]) p' := by
  cases hu : d.u with
  | CREATE_PROCESS hFile hProcess hThread base => exact absurd hu (hc _ _ _ _)
  | EXIT_PROCESS code => simp [hu,DebugInfo.isExitProcess] at hx
  | EXCEPTION record first =>
    obtain ⟨p',he,hp'⟩ := hr.exception (o:=o) fT record first hu
    exact ⟨p',by simp [DebugLoop.handle,hu,he,RecordChange.entry],hp'⟩
  | CREATE_THREAD hThread =>
    refine ⟨{ p with Threads := p.Threads.insert d.dwThreadId hThread },
      by simp [DebugLoop.handle,hu,RecordChange.entry],?_⟩
    exact hr.setThread (fun tid => getElem?_insert_thread ..) (by simp [LiveProcess.observe,hu])
      (by simp [hu,DebugInfo.isBreakpoint]) (by simp [hu,DebugInfo.isWowBreakpoint])
  | EXIT_THREAD code =>
    refine ⟨{ p with Threads := p.Threads.erase d.dwThreadId },
      by simp [DebugLoop.handle,hu,onExitThread,RecordChange.entry],?_⟩
    exact hr.setThread (fun tid => getElem?_erase_thread ..) (by simp [LiveProcess.observe,hu])
      (by simp [hu,DebugInfo.isBreakpoint]) (by simp [hu,DebugInfo.isWowBreakpoint])
  | OUTPUT_DEBUG_STRING data len =>
    refine ⟨p,?_,hr.same (by simp [hu]) (by simp [hu]) (by simp [hu])⟩
    simp only [DebugLoop.handle,hu,onOutputDebugString]
    split <;> rfl
  | LOAD_DLL | UNLOAD_DLL | RIP | other =>
    refine ⟨p,?_,hr.same (by simp [hu]) (by simp [hu]) (by simp [hu])⟩
    simp [DebugLoop.handle,hu,onLoadDll,RecordChange.entry]

/-- The record made by `CREATE_PROCESS` on a fresh entry. -/
def createdRecord (o : DebugOptions) (tid : DWORD) (hProcess hThread : HANDLE) : ProcessInfo :=
  { hProcess := hProcess
    Threads := (∅ : ThreadInfoList).insert tid hThread
    fDumpWritten := !o.minidump }

theorem onCreateProcess_record (o : DebugOptions) (a : Answers) (pid tid : DWORD)
    (hFile hProcess hThread : HANDLE) (base : DWORD64) (fT : Bool) :
    (onCreateProcess o a pid tid hFile hProcess hThread base fT {}).record =
      .store (createdRecord o tid hProcess hThread) := by
  simp only [onCreateProcess]
  split <;> rfl

theorem reflects_created (o : DebugOptions) {hFile hProcess hThread : HANDLE} {base : DWORD64}
    (hu : d.u = .CREATE_PROCESS hFile hProcess hThread base) :
    Reflects ⟨hProcess,Function.update (fun _ => none) d.dwThreadId (some hThread),false⟩ [d]
      (createdRecord o d.dwThreadId hProcess hThread) := by
  have hthreads (tid : DWORD) : (createdRecord o d.dwThreadId hProcess hThread).Threads[tid]? =
      Function.update (fun _ => none) d.dwThreadId (some hThread) tid := by
    rw [createdRecord,getElem?_insert_thread]
    by_cases ht : tid = d.dwThreadId
    · simp [ht]
    · simp [ht]
  exact ⟨rfl,fun tid h hh => (hthreads tid).trans hh,fun _ => hthreads,
    by simp [hu,DebugInfo.isBreakpoint],by simp [createdRecord,hu,DebugInfo.isBreakpoint],
    by simp [createdRecord,hu,DebugInfo.isWowBreakpoint]⟩

variable {ds : List Delivery}

theorem history_concat (ds : List Delivery) (d : Delivery) (pid : DWORD) :
    history (ds ++ [d]) pid =
      if pid = d.dwProcessId then historyAfter (history ds pid) d else history ds pid := by
  rw [history,Machine.after_concat]
  by_cases hp : pid = d.dwProcessId
  · subst hp
    simp [Machine.next,historyMachine,history]
  · simp [Machine.next,historyMachine,hp,history]

theorem live_concat_apply (ds : List Delivery) (d : Delivery) (pid : DWORD) :
    live (ds ++ [d]) pid =
      if pid = d.dwProcessId then liveAfter (live ds pid) d else live ds pid := by
  rw [live_concat]
  by_cases hp : pid = d.dwProcessId
  · subst hp
    simp [Machine.next,liveMachine]
  · simp [Machine.next,liveMachine,hp]

/-- An event that neither creates nor ends its process carries the instance on. -/
theorem carries_on {d : Delivery}
    (hc : ∀ hFile hProcess hThread base, d.u ≠ .CREATE_PROCESS hFile hProcess hThread base)
    (hx : d.u.isExitProcess = false) (l : Option LiveProcess) (h : Option (List Delivery)) :
    liveAfter l d = l.map (·.observe d) ∧ historyAfter h d = h.map (· ++ [d]) := by
  cases hu : d.u with
  | CREATE_PROCESS hFile hProcess hThread base => exact absurd hu (hc _ _ _ _)
  | EXIT_PROCESS code => simp [hu,DebugInfo.isExitProcess] at hx
  | EXCEPTION | CREATE_THREAD | EXIT_THREAD | LOAD_DLL | UNLOAD_DLL | OUTPUT_DEBUG_STRING | RIP
  | other => simp [liveAfter,historyAfter,hu]

/-- What is known of the record of a process identifier: there is one exactly for a
live process instance, made by the events of that instance. -/
def Mirrors (l : Option LiveProcess) (h : Option (List Delivery)) (q : Option ProcessInfo) : Prop :=
  q.isSome = l.isSome ∧
    ∀ l', l = some l' → ∃ p es, q = some p ∧ h = some es ∧ Reflects l' es p

theorem Mirrors.handle {t : LiveTable} {h : Option (List Delivery)} {q : Option ProcessInfo}
    (hm : Mirrors (t d.dwProcessId) h q) (hd : Legal t d) (fT : Bool) :
    Mirrors (liveAfter (t d.dwProcessId) d) (historyAfter h d)
      ((handle o d fT (q.getD {})).record.entry q) := by
  refine ⟨handle_entry_isSome fT _ hm.1 hd,fun l' hl => ?_⟩
  cases hu : d.u with
  | CREATE_PROCESS hFile hProcess hThread base =>
    have hq := hm.1
    have hnone : t d.dwProcessId = none := by simpa [Legal,hu] using hd
    rw [hnone,Option.isSome_none,Option.isSome_eq_false_iff,Option.isNone_iff_eq_none] at hq
    obtain rfl := Option.some.inj (by simpa [liveAfter,hu] using hl)
    refine ⟨_,[d],?_,by simp [historyAfter,hu],reflects_created o hu⟩
    simp [hq,DebugLoop.handle,hu,onCreateProcess_record,RecordChange.entry]
  | EXIT_PROCESS code => simp [liveAfter,hu] at hl
  | EXCEPTION | CREATE_THREAD | EXIT_THREAD | LOAD_DLL | UNLOAD_DLL | OUTPUT_DEBUG_STRING | RIP
  | other =>
    have hc : ∀ hFile hProcess hThread base,
        d.u ≠ .CREATE_PROCESS hFile hProcess hThread base := by simp [hu]
    have hx : d.u.isExitProcess = false := by simp [hu,DebugInfo.isExitProcess]
    obtain ⟨hla,hha⟩ := carries_on hc hx (t d.dwProcessId) h
    rw [hla] at hl
    obtain ⟨l,hl',rfl⟩ := Option.map_eq_some_iff.mp hl
    obtain ⟨p,es,rfl,rfl,hr⟩ := hm.2 l hl'
    obtain ⟨p',hp',hr'⟩ := hr.handle (o:=o) fT hc hx
    exact ⟨p',es ++ [d],hp',by rw [hha]; rfl,hr'⟩

/-- In a loop that has handled a legal stream, the record of every live process
instance is what the events of that instance make of it. -/
theorem handled_mirrors (hlegal : LegalStream ds) (h : Handled o ds) (pid : DWORD) :
    Mirrors (live ds pid) (history ds pid) (loopAfter o ds).g_Processes[pid]? := by
  induction ds using List.reverseRecOn generalizing pid with
  | nil => exact ⟨rfl,fun l' hl => by simp [live,Machine.after,noProcess] at hl⟩
  | append_singleton ds d ih =>
    obtain ⟨hh,hw⟩ := handled_concat.mp h
    obtain ⟨hlegal,hd⟩ := Machine.along_concat.mp hlegal
    rw [loopAfter_concat,next_waiting hw,turn_getElem?,history_concat,live_concat_apply]
    by_cases hp : pid = d.dwProcessId
    · subst hp
      rw [if_pos rfl,if_pos rfl,if_pos rfl]
      exact (ih hlegal hh _).handle hd _
    · rw [if_neg hp,if_neg hp,if_neg hp]
      exact ih hlegal hh pid

/-- The record an event of a live process instance finds. -/
theorem handled_record {l : LiveProcess} (hlegal : LegalStream ds) (h : Handled o ds)
    {pid : DWORD} (hl : live ds pid = some l) :
    ∃ p es, (loopAfter o ds).g_Processes[pid]? = some p ∧ history ds pid = some es ∧
      Reflects l es p := (handled_mirrors hlegal h pid).2 l hl

end DebugLoop
end DrMingw
