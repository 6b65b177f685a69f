import Mathlib.Order.Bounds.Basic
import DrMingw.ModalDialogTrap

/-! The time-out of `catchsegv`, counted in 32-bit milliseconds: the tick of the timer at
which the root process is terminated, against the exact one. -/
namespace DrMingw

/-- The first places of two properties agree exactly if, up to the first place of one, the
properties do. -/
theorem isLeast_agree_iff {A B : ℕ → Prop} :
    (∀ n, IsLeast {m | A m} n ↔ IsLeast {m | B m} n) ↔
      ∀ n, (∀ m < n, ¬B m) → (A n ↔ B n) := by
  constructor
  · intro h n
    induction n using Nat.strong_induction_on with
    | _ n ih =>
      intro hB
      have hA : ∀ m < n, ¬A m := fun m hm =>
        (not_congr (ih m hm fun k hk => hB k (hk.trans hm))).mpr (hB m hm)
      have hfirst : ∀ {C : ℕ → Prop}, (∀ m < n, ¬C m) → (IsLeast {m | C m} n ↔ C n) :=
        fun hC => ⟨fun hl => hl.1,fun hn => ⟨hn,fun m hm => Nat.le_of_not_lt fun hlt => hC m hlt hm⟩⟩
      rw [← hfirst hA,← hfirst hB]
      exact h n
  · intro h n
    have hbefore : ∀ {C : ℕ → Prop}, IsLeast {m | C m} n → ∀ m < n, ¬C m :=
      fun hl m hm hC => absurd (hl.2 hC) (Nat.not_le_of_lt hm)
    have hagree : (∀ m < n, ¬B m) → ∀ m < n, (A m ↔ B m) :=
      fun hB m hm => h m fun k hk => hB k (hk.trans hm)
    constructor
    · intro hl
      have hB : ∀ m < n, ¬B m := by
        intro m
        induction m using Nat.strong_induction_on with
        | _ m ih =>
          intro hm hBm
          exact hbefore hl m hm ((h m fun k hk => ih k hk (hk.trans hm)).mpr hBm)
      exact ⟨(h n hB).mp hl.1,fun m hm => Nat.le_of_not_lt fun hlt => hB m hlt hm⟩
    · intro hl
      have hB := hbefore hl
      exact ⟨(h n hB).mpr hl.1,fun m hm => Nat.le_of_not_lt fun hlt =>
        hB m hlt ((hagree hB m hlt).mp hm)⟩

namespace ModalDialogTrap
open DebugLoop

variable (c : CatchsegvOptions) (ndebug : Bool) (root : DWORD)

/-- At this tick the callback calls `TerminateProcessById`. -/
def Terminates (s : Session) (modal : Option DWORD) (terminated : Bool) : Prop :=
  (root,.TerminateProcessById root) ∈
    (machine c ndebug root).emit s (.TimeOutCallback modal terminated)

/-- The ticks of the timer among the moves. -/
def ticks (ms : List Move) : ℕ :=
  ms.countP fun
    | .TimeOutCallback .. => true
    | _ => false

/-- No tick finds a modal dialog. -/
def DialogFree (ms : List Move) : Prop :=
  ∀ modal terminated, .TimeOutCallback modal terminated ∈ ms →
    (if c.g_ModalDialogIgnore then none else modal) = none

/-- `n` ticks after the first one the time is over, in exact arithmetic. -/
def Due (T P n : ℕ) : Prop := 0 < T ∧ 1000 * T ≤ (n + 1) * P

/-- The comparison of the callback. -/
def WrappedDue (T P n : ℕ) : Prop := 0 < T ∧ 1000 * T % 2^32 ≤ (n + 1) * P % 2^32

/-- The process is terminated at a tick exactly if that is the first one due. -/
def OnTime (pre : List Move) : Move → Prop
  | .TimeOutCallback modal terminated =>
    Terminates c ndebug root (session c ndebug root pre) modal terminated ↔
      IsLeast {n | Due c.g_TimeOut.toNat c.g_Period.toNat n} (ticks pre)
  | .event _ | .TrapThread _ => True

/-- Modulo 2^32, no multiple of the period below the time-out reaches it, and the first
one not below it does. -/
structure KeepsTime (T P : ℕ) : Prop where
  early : ∀ n, 0 < n → n * P < 1000 * T → n * P % 2^32 < 1000 * T % 2^32
  late : 0 < T → ∀ n, n * P < 1000 * T → 1000 * T ≤ (n + 1) * P →
    1000 * T % 2^32 ≤ (n + 1) * P % 2^32

variable {c ndebug root} {ms : List Move} {T P : ℕ} {s : Session} {modal : Option DWORD}

theorem ticks_replicate (n : ℕ) : ticks (List.replicate n (.TimeOutCallback none true)) = n := by
  induction n with
  | zero => rfl
  | succ n ih =>
    rw [List.replicate_succ,ticks,List.countP_cons_of_pos rfl]
    exact congrArg (· + 1) ih

theorem dialogFree_replicate (c : CatchsegvOptions) (n : ℕ) :
    DialogFree c (List.replicate n (.TimeOutCallback none true)) := by
  intro modal t hmem
  obtain ⟨rfl,-⟩ := Move.TimeOutCallback.inj (List.eq_of_mem_replicate hmem)
  exact ite_self _

/-- The time is not over before some tick if it is not over at the last one before. -/
theorem not_due_before_iff (hT : 0 < T) {n : ℕ} :
    (∀ m < n, ¬Due T P m) ↔ n = 0 ∨ n * P < 1000 * T := by
  cases n with
  | zero => simp
  | succ n =>
    constructor
    · intro h
      exact .inr (Nat.lt_of_not_le fun hle => h n n.lt_succ_self ⟨hT,hle⟩)
    · rintro (h | h) m hm ⟨-,hdue⟩
      · omega
      · have hle : (m + 1) * P ≤ (n + 1) * P := Nat.mul_le_mul_right P hm
        omega

theorem keepsTime_iff :
    (∀ n, (∀ m < n, ¬Due T P m) → (WrappedDue T P n ↔ Due T P n)) ↔ KeepsTime T P := by
  rcases T.eq_zero_or_pos with rfl | hT
  · exact iff_of_true (fun n _ => by simp [Due,WrappedDue]) ⟨by simp,by simp⟩
  simp only [not_due_before_iff hT]
  simp only [Due,WrappedDue,hT,true_and]
  constructor
  · intro h
    refine ⟨fun n hn hlt => ?_,fun _ n hlt hle => (h n (.inr hlt)).mpr hle⟩
    obtain ⟨k,rfl⟩ : ∃ k, n = k + 1 := ⟨n - 1,by omega⟩
    have hk : k * P < 1000 * T := (Nat.mul_le_mul_right P k.le_succ).trans_lt hlt
    have hiff := h k (.inr hk)
    omega
  · intro h n hn
    have hlt : n * P < 1000 * T := by
      rcases hn with rfl | hlt
      · omega
      · exact hlt
    constructor
    · intro hw
      by_contra hnot
      have hearly := h.early (n + 1) n.succ_pos (Nat.lt_of_not_le hnot)
      omega
    · exact h.late hT n hlt

/-- Without a wrap the arithmetic is exact. -/
theorem keepsTime_of_le (h : 1000 * T + P ≤ 2^32) : KeepsTime T P := by
  by_cases hP : P = 0
  · subst hP
    exact ⟨fun n _ hlt => by omega,fun hT n _ hle => by omega⟩
  constructor
  · intro n _ hlt
    rw [Nat.mod_eq_of_lt (by omega),Nat.mod_eq_of_lt (by omega)]
    exact hlt
  · intro _ n hlt hle
    have hnext : (n + 1) * P = n * P + P := Nat.succ_mul n P
    rw [Nat.mod_eq_of_lt (by omega),Nat.mod_eq_of_lt (by omega)]
    exact hle

/-- What the timer knows after `k` ticks without a dialog. -/
structure TimerInv (c : CatchsegvOptions) (k : ℕ) (s : Session) : Prop where
  ignored : s.g_TimerIgnore = true ↔ ∃ n < k, WrappedDue c.g_TimeOut.toNat c.g_Period.toNat n
  elapsed : s.g_TimerIgnore = false → s.g_ElapsedTime.toNat = k * c.g_Period.toNat % 2^32

/-- The comparison in 32 bits. -/
theorem TimerInv.over_iff {k : ℕ} (h : TimerInv c k s) (hs : s.g_TimerIgnore = false) :
    ¬(c.g_TimeOut = 0 ∨ s.g_ElapsedTime + c.g_Period < c.g_TimeOut * 1000) ↔
      WrappedDue c.g_TimeOut.toNat c.g_Period.toNat k := by
  have hzero : c.g_TimeOut = 0 ↔ c.g_TimeOut.toNat = 0 := by rw [← UInt32.toNat_inj]; rfl
  have hsum : (s.g_ElapsedTime + c.g_Period).toNat = (k + 1) * c.g_Period.toNat % 2^32 := by
    rw [UInt32.toNat_add,h.elapsed hs,Nat.succ_mul,Nat.mod_add_mod]
  have hlimit : (c.g_TimeOut * 1000).toNat = 1000 * c.g_TimeOut.toNat % 2^32 := by
    rw [UInt32.toNat_mul,Nat.mul_comm]
    rfl
  rw [hzero,UInt32.lt_iff_toNat_lt,hsum,hlimit,WrappedDue]
  omega

/-- A tick without a dialog: nothing more happens, or the time goes on, or it is over. -/
theorem tick_cases (hm : (if c.g_ModalDialogIgnore then none else modal) = none)
    (root : DWORD) (s : Session) (terminated : Bool) :
    (s.g_TimerIgnore = true ∧ TimeOutCallback c root s modal terminated = (s,[])) ∨
    (s.g_TimerIgnore = false ∧
      (c.g_TimeOut = 0 ∨ s.g_ElapsedTime + c.g_Period < c.g_TimeOut * 1000) ∧
      TimeOutCallback c root s modal terminated =
        ({ s with g_ElapsedTime := s.g_ElapsedTime + c.g_Period },[])) ∨
    (s.g_TimerIgnore = false ∧
      ¬(c.g_TimeOut = 0 ∨ s.g_ElapsedTime + c.g_Period < c.g_TimeOut * 1000) ∧
      (TimeOutCallback c root s modal terminated).1.g_TimerIgnore = true ∧
      .TerminateProcessById root ∈ (TimeOutCallback c root s modal terminated).2) := by
  rw [TimeOutCallback,hm]
  by_cases hi : s.g_TimerIgnore = true
  · exact .inl ⟨hi,if_pos hi⟩
  · have hi' : s.g_TimerIgnore = false := by simpa using hi
    rw [if_neg hi]
    dsimp only
    by_cases hover : c.g_TimeOut = 0 ∨ s.g_ElapsedTime + c.g_Period < c.g_TimeOut * 1000
    · rw [if_pos hover]
      exact .inr (.inl ⟨hi',hover,rfl⟩)
    · rw [if_neg hover]
      exact .inr (.inr ⟨hi',hover,rfl,List.mem_cons_self⟩)

theorem mem_emit_tick (s : Session) : Terminates c ndebug root s modal terminated ↔
    .TerminateProcessById root ∈ (TimeOutCallback c root s modal terminated).2 := by
  simp [Terminates,Machine.emit,machine]

/-- The call is made where no dialog is found and the comparison succeeds. -/
theorem terminates_iff (s : Session) : Terminates c ndebug root s modal terminated ↔
    s.g_TimerIgnore = false ∧ (if c.g_ModalDialogIgnore then none else modal) = none ∧
      ¬(c.g_TimeOut = 0 ∨ s.g_ElapsedTime + c.g_Period < c.g_TimeOut * 1000) := by
  rw [mem_emit_tick]
  by_cases hm : (if c.g_ModalDialogIgnore then none else modal) = none
  · rcases tick_cases hm root s terminated with ⟨hi,heq⟩ | ⟨hi,hover,heq⟩ | ⟨hi,hover,-,hmem⟩
    · simp [heq,hi]
    · simp [heq,hover]
    · exact iff_of_true hmem ⟨hi,hm,hover⟩
  · obtain ⟨dwThreadId,hfound⟩ := Option.ne_none_iff_exists'.mp hm
    refine iff_of_false ?_ fun h => hm h.2.1
    rw [TimeOutCallback,hfound]
    split <;> exact List.not_mem_nil

theorem TimerInv.tick {k : ℕ} (h : TimerInv c k s)
    (hm : (if c.g_ModalDialogIgnore then none else modal) = none) (root : DWORD)
    (terminated : Bool) : TimerInv c (k + 1) (TimeOutCallback c root s modal terminated).1 := by
  have hsplit : (∃ n < k + 1, WrappedDue c.g_TimeOut.toNat c.g_Period.toNat n) ↔
      s.g_TimerIgnore = true ∨ WrappedDue c.g_TimeOut.toNat c.g_Period.toNat k := by
    rw [h.ignored]
    constructor
    · rintro ⟨n,hn,hw⟩
      rcases (Nat.le_of_lt_succ hn).lt_or_eq with hlt | rfl
      · exact .inl ⟨n,hlt,hw⟩
      · exact .inr hw
    · rintro (⟨n,hn,hw⟩ | hw)
      · exact ⟨n,Nat.lt_succ_of_lt hn,hw⟩
      · exact ⟨k,k.lt_succ_self,hw⟩
  rcases tick_cases hm root s terminated with ⟨hi,heq⟩ | ⟨hi,hover,heq⟩ | ⟨hi,hover,hset,-⟩
  · rw [heq]
    exact ⟨by rw [hsplit]; simp [hi],fun hf => by simp [hi] at hf⟩
  · have hnot := (not_congr (h.over_iff hi)).mp (not_not.mpr hover)
    rw [heq]
    refine ⟨by rw [hsplit]; simp [hi,hnot],fun _ => ?_⟩
    dsimp only
    rw [UInt32.toNat_add,h.elapsed hi,Nat.succ_mul,Nat.mod_add_mod]
  · have hdue := (h.over_iff hi).mp hover
    exact ⟨by rw [hsplit]; simp [hset,hdue],fun hf => by simp [hset] at hf⟩

/-- The other moves leave the timer alone. -/
theorem timer_kept (s : Session) (m : Move)
    (hm : ∀ modal terminated, m ≠ .TimeOutCallback modal terminated) :
    ((machine c ndebug root).next s m).g_TimerIgnore = s.g_TimerIgnore ∧
      ((machine c ndebug root).next s m).g_ElapsedTime = s.g_ElapsedTime := by
  cases m with
  | event d => exact ⟨rfl,rfl⟩
  | TimeOutCallback modal terminated => exact absurd rfl (hm modal terminated)
  | TrapThread a => cases ht : s.target <;> simp [Machine.next,machine,ht]

/-- The invariant holds in every run. -/
theorem session_timer (h : DialogFree c ms) :
    TimerInv c (ticks ms) (session c ndebug root ms) := by
  induction ms using List.reverseRecOn with
  | nil => exact ⟨by simp [session,ticks],fun _ => by simp [session,ticks]⟩
  | append_singleton ms m ih =>
    have hms := ih fun modal t hmem => h modal t (List.mem_append_left _ hmem)
    rw [session_concat]
    cases m with
    | event d =>
      have ht : ticks (ms ++ [.event d]) = ticks ms := by simp [ticks]
      exact ht ▸ ⟨hms.ignored,hms.elapsed⟩
    | TimeOutCallback modal t =>
      have ht : ticks (ms ++ [.TimeOutCallback modal t]) = ticks ms + 1 := by simp [ticks]
      exact ht ▸ hms.tick (h modal t (List.mem_append_right _ List.mem_cons_self)) root t
    | TrapThread a =>
      have ht : ticks (ms ++ [.TrapThread a]) = ticks ms := by simp [ticks]
      obtain ⟨hi,he⟩ := timer_kept (c:=c) (session c ndebug root ms) (.TrapThread a) (by simp)
      rw [ht]
      exact ⟨by rw [hi]; exact hms.ignored,by rw [hi,he]; exact hms.elapsed⟩

/-- A tick terminates the process exactly if its comparison is the first to succeed. -/
theorem TimerInv.terminates_iff {k : ℕ} (h : TimerInv c k s)
    (hm : (if c.g_ModalDialogIgnore then none else modal) = none) :
    Terminates c ndebug root s modal terminated ↔
      IsLeast {n | WrappedDue c.g_TimeOut.toNat c.g_Period.toNat n} k := by
  have hfirst : IsLeast {n | WrappedDue c.g_TimeOut.toNat c.g_Period.toNat n} k ↔
      s.g_TimerIgnore = false ∧ WrappedDue c.g_TimeOut.toNat c.g_Period.toNat k := by
    rw [← Bool.not_eq_true,h.ignored]
    constructor
    · intro hl
      exact ⟨fun ⟨n,hn,hw⟩ => absurd (hl.2 hw) (Nat.not_le_of_lt hn),hl.1⟩
    · rintro ⟨hno,hw⟩
      exact ⟨hw,fun n hn => Nat.le_of_not_lt fun hlt => hno ⟨n,hlt,hn⟩⟩
  rw [hfirst,ModalDialogTrap.terminates_iff,and_iff_right hm]
  exact and_congr_right fun hi => h.over_iff hi

/-- Once given up, the process is not terminated again. -/
theorem not_terminates_twice {pre mid : List Move} {modal' : Option DWORD} {terminated' : Bool}
    (hk : Terminates c ndebug root (session c ndebug root pre) modal terminated) :
    ¬Terminates c ndebug root
      (session c ndebug root (pre ++ .TimeOutCallback modal terminated::mid)) modal' terminated' := by
  obtain ⟨hi,hm,hover⟩ := (terminates_iff _).mp hk
  have hset : (TimeOutCallback c root (session c ndebug root pre) modal terminated).1.g_TimerIgnore =
      true := by
    rcases tick_cases hm root (session c ndebug root pre) terminated with
      ⟨hi',-⟩ | ⟨-,hnot,-⟩ | ⟨-,-,hset,-⟩
    · exact absurd (hi.symm.trans hi') (by decide)
    · exact absurd hnot hover
    · exact hset
  have hkeeps : ∀ (s : Session) (m : Move), s.g_TimerIgnore = true →
      ((machine c ndebug root).next s m).g_TimerIgnore = true := by
    intro s m hs
    cases m with
    | event d => exact hs
    | TimeOutCallback modal t =>
      change (TimeOutCallback c root s modal t).1.g_TimerIgnore = true
      rw [TimeOutCallback,if_pos hs]
      exact hs
    | TrapThread a => exact ((timer_kept s (.TrapThread a) (by simp)).1).trans hs
  intro hk'
  have hbefore := ((terminates_iff _).mp hk').1
  rw [session,Machine.after_append,Machine.after_cons] at hbefore
  have hrun := Machine.after_invariant_all (M:=machine c ndebug root) hkeeps hset mid
  exact absurd (hrun.symm.trans hbefore) (by decide)

/-- A tick is on time if the first places of the two comparisons are both there or both
elsewhere. -/
theorem onTime_iff {pre : List Move} (hpre : DialogFree c pre)
    (hnone : (if c.g_ModalDialogIgnore then none else modal) = none) :
    OnTime c ndebug root pre (.TimeOutCallback modal terminated) ↔
      (IsLeast {n | WrappedDue c.g_TimeOut.toNat c.g_Period.toNat n} (ticks pre) ↔
        IsLeast {n | Due c.g_TimeOut.toNat c.g_Period.toNat n} (ticks pre)) := by
  rw [OnTime,(session_timer hpre).terminates_iff hnone]

/-- Every number of ticks is reached by a run. -/
theorem onTime_all_iff (c : CatchsegvOptions) (ndebug : Bool) (root : DWORD) :
    (∀ ms, DialogFree c ms → ∀ pre m post, ms = pre ++ m::post → OnTime c ndebug root pre m) ↔
      ∀ n, IsLeast {n | WrappedDue c.g_TimeOut.toNat c.g_Period.toNat n} n ↔
        IsLeast {n | Due c.g_TimeOut.toNat c.g_Period.toNat n} n := by
  constructor
  · intro hall n
    -- the run of n ticks, and one more
    have hon := hall _ (dialogFree_replicate c (n + 1))
      (List.replicate n (.TimeOutCallback none true)) (.TimeOutCallback none true) []
      List.replicate_succ'
    have hagree := (onTime_iff (dialogFree_replicate c n) (ite_self _)).mp hon
    rwa [ticks_replicate] at hagree
  · rintro hagree ms hfree pre m post rfl
    cases m with
    | event d => trivial
    | TrapThread a => trivial
    | TimeOutCallback modal t =>
      have hpre : DialogFree c pre := fun modal t hmem =>
        hfree modal t (List.mem_append_left _ hmem)
      have hm := hfree modal t (List.mem_append_right _ List.mem_cons_self)
      exact (onTime_iff hpre hm).mpr (hagree (ticks pre))

/-- Terminations come at the exact tick in every run without dialogs if and only if the
32-bit comparison is right up to that tick, as it is for time-outs below 2^32
milliseconds; and there is one at most. -/
theorem time_out_exact_iff (c : CatchsegvOptions) (ndebug : Bool) (root : DWORD) :
    ((∀ ms, DialogFree c ms →
        ∀ pre m post, ms = pre ++ m::post → OnTime c ndebug root pre m) ↔
      KeepsTime c.g_TimeOut.toNat c.g_Period.toNat) ∧
    (1000 * c.g_TimeOut.toNat + c.g_Period.toNat ≤ 2^32 →
      KeepsTime c.g_TimeOut.toNat c.g_Period.toNat) ∧
    ∀ pre modal terminated mid modal' terminated',
      Terminates c ndebug root (session c ndebug root pre) modal terminated →
      ¬Terminates c ndebug root
        (session c ndebug root (pre ++ .TimeOutCallback modal terminated::mid)) modal' terminated' := by
  refine ⟨?_,keepsTime_of_le,fun _ _ _ _ _ _ hk => not_terminates_twice hk⟩
  rw [← keepsTime_iff,← isLeast_agree_iff]
  exact onTime_all_iff c ndebug root

/-- Of a time-out of 4294968 seconds, 704 milliseconds are left in 32 bits. -/
theorem long_time_out_terminates :
    Terminates { g_TimeOut := 4294968 } true 7 (session { g_TimeOut := 4294968 } true 7 []) none true ∧
      ¬OnTime { g_TimeOut := 4294968 } true 7 [] (.TimeOutCallback none true) := by
  have hcall : Terminates { g_TimeOut := 4294968 } true 7
      (session { g_TimeOut := 4294968 } true 7 []) none true :=
    (terminates_iff _).mpr ⟨rfl,rfl,by decide⟩
  refine ⟨hcall,fun h => ?_⟩
  have hdue := (h.mp hcall).1.2
  exact absurd hdue (by decide)

end ModalDialogTrap
end DrMingw
