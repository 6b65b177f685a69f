import Mathlib.Data.List.TakeWhile
import DrMingw.Win32
import DrMingw.ArgumentSplit

/-! The command line `catchsegv` builds for its child from the arguments it was
given, and when the child reads the same arguments back. -/
namespace DrMingw
namespace CommandLine

def SPACE : WCHAR := 0x20
def TAB : WCHAR := 0x09
def QUOTE : WCHAR := 0x22
def BACKSLASH : WCHAR := 0x5C

/-- Decide whether an argument is quoted. The character after a backslash is
consumed with it and compared with the double quote only. -/
def needsQuote : List WCHAR → Bool
  | [] => false
  | c::arg =>
    if c = SPACE ∨ c = TAB ∨ c = QUOTE then true
    else if c = BACKSLASH then
      match arg with
      | [] => false
      | c'::arg' => if c' = QUOTE then true else needsQuote arg'
    else needsQuote arg

theorem needsQuote_separator {c : WCHAR} (hc : c = SPACE ∨ c = TAB ∨ c = QUOTE)
    (arg : List WCHAR) : needsQuote (c::arg) = true := by
  cases arg <;> simp [needsQuote,hc]

theorem needsQuote_plain {c : WCHAR} (hc : ¬(c = SPACE ∨ c = TAB ∨ c = QUOTE))
    (hs : c ≠ BACKSLASH) (arg : List WCHAR) : needsQuote (c::arg) = needsQuote arg := by
  cases arg <;> simp [needsQuote,hc,hs]

/-- What the loop of `quoteArg` pushes, given the backslashes just pushed. Their number is an
`unsigned` there, which an argument of fewer than 2^32 characters does not wrap. -/
def quoteLoop : ℕ → List WCHAR → List WCHAR
  | _, [] => []
  | backslashes, c::arg =>
    if c = QUOTE then
      List.replicate backslashes BACKSLASH ++ BACKSLASH :: c :: quoteLoop 0 arg
    else if c = BACKSLASH then c :: quoteLoop (backslashes+1) arg
    else c :: quoteLoop 0 arg

def quoteArg (s arg : List WCHAR) : List WCHAR := s ++ QUOTE :: quoteLoop 0 arg ++ [QUOTE]

/-- The concatenation loop of `wmain`; `sep` is set once an argument has been added. -/
def concatenate : Bool → List WCHAR → List (List WCHAR) → List WCHAR
  | _, commandLine, [] => commandLine
  | sep, commandLine, arg::argv =>
    let commandLine := if sep then commandLine ++ [SPACE] else commandLine
    concatenate true
      (if needsQuote arg then quoteArg commandLine arg else commandLine ++ arg) argv

/-- `wmain`'s command line for the arguments left after its own options. -/
def commandLine (argv : List (List WCHAR)) : List WCHAR := concatenate false [] argv

/-- The text one argument contributes. -/
def encode (arg : List WCHAR) : List WCHAR :=
  if needsQuote arg then QUOTE :: quoteLoop 0 arg ++ [QUOTE] else arg

/-- The text of the arguments after the first, each behind a separator. -/
def encodeTail (argv : List (List WCHAR)) : List WCHAR :=
  argv.flatMap fun arg => SPACE :: encode arg

theorem concatenate_true (s : List WCHAR) (argv : List (List WCHAR)) :
    concatenate true s argv = s ++ encodeTail argv := by
  induction argv generalizing s with
  | nil => simp [concatenate,encodeTail]
  | cons arg argv ih =>
    simp only [concatenate,if_true,ih,encodeTail,List.flatMap_cons,encode]
    split <;> simp [quoteArg]

theorem commandLine_cons (arg : List WCHAR) (argv : List (List WCHAR)) :
    commandLine (arg::argv) = encode arg ++ encodeTail argv := by
  simp only [commandLine,concatenate,concatenate_true,encode]
  split <;> simp [quoteArg]

/-- The rules the child's C runtime splits its command line by. -/
def msvcrt : ArgumentSplit.Alphabet WCHAR where
  blank c := c == SPACE || c == TAB
  quote := QUOTE
  slash := BACKSLASH
  quote_ne_slash := by decide
  blank_quote := by decide
  blank_slash := by decide

@[simp] theorem msvcrt_quote : msvcrt.quote = QUOTE := rfl
@[simp] theorem msvcrt_slash : msvcrt.slash = BACKSLASH := rfl

open ArgumentSplit

theorem blank_iff {c : WCHAR} : msvcrt.blank c = true ↔ c = SPACE ∨ c = TAB := by
  simp [msvcrt]

theorem encodeTail_stops (argv : List (List WCHAR)) : Stops msvcrt (encodeTail argv) := by
  cases argv with
  | nil => simp [encodeTail,Stops]
  | cons arg argv =>
    intro c hc
    have he : c = SPACE := by simpa [encodeTail,eq_comm] using hc
    exact blank_iff.mpr (.inl he)

theorem split_encodeTail (argv : List (List WCHAR)) :
    split msvcrt (encodeTail argv) = split msvcrt (commandLine argv) := by
  cases argv with
  | nil => rfl
  | cons arg argv =>
    rw [commandLine_cons]
    exact split_blank (blank_iff.mpr (.inl rfl)) _

/-- An argument left unquoted has no double quote. -/
theorem quote_notMem {arg : List WCHAR} (h : needsQuote arg = false) : QUOTE ∉ arg := by
  induction arg using needsQuote.induct with
  | case1 => simp
  | case2 c arg hc => simp [needsQuote_separator hc] at h
  | case3 => decide
  | case4 arg hb => simp [needsQuote,hb] at h
  | case5 c arg hc hb ih =>
    have ht : QUOTE ∉ arg := ih (by simpa [needsQuote,hb,hc] using h)
    have hs : QUOTE ≠ BACKSLASH := by decide
    simp [hs,Ne.symm hc,ht]
  | case6 c arg hc hs ih =>
    have ht : QUOTE ∉ arg := ih (by simpa [needsQuote_plain hc hs] using h)
    have hq : QUOTE ≠ c := fun he => hc (.inr (.inr he.symm))
    simp [hq,ht]

/-- Decoding the body of a quoted argument undoes the loop of `quoteArg`; only
the final run of backslashes is left pending. -/
theorem splitFrom_quoteLoop (arg : List WCHAR) (m : ℕ) (t s : List WCHAR)
    (ht : t.getLast? ≠ some BACKSLASH) :
    ∃ t' m', t'.getLast? ≠ some BACKSLASH ∧
      t' ++ List.replicate m' BACKSLASH = t ++ List.replicate m BACKSLASH ++ arg ∧
      splitFrom msvcrt true m (some t) (quoteLoop m arg ++ s) =
        splitFrom msvcrt true m' (some t') s := by
  induction arg generalizing m t with
  | nil => exact ⟨t,m,ht,by simp,rfl⟩
  | cons c arg ih =>
    by_cases hq : c = QUOTE
    · obtain ⟨t',m',hl,he,hsp⟩ := ih 0 (t ++ List.replicate m BACKSLASH ++ [QUOTE])
        (by simp [show QUOTE ≠ BACKSLASH by decide])
      refine ⟨t',m',hl,by simpa [hq] using he,?_⟩
      have h₁ := splitFrom_slashes (A:=msvcrt) true m m t
        (msvcrt.slash :: msvcrt.quote :: (quoteLoop 0 arg ++ s))
      rw [splitFrom_slash,splitFrom_quote,if_neg (by omega)] at h₁
      have hm : (m+m+1)/2 = m := by omega
      rw [hm] at h₁
      rw [hq,quoteLoop,if_pos rfl,← hsp]
      simpa using h₁
    by_cases hs : c = BACKSLASH
    · obtain ⟨t',m',hl,he,hsp⟩ := ih (m+1) t ht
      refine ⟨t',m',hl,by simpa [hs,List.replicate_succ'] using he,?_⟩
      rw [quoteLoop,if_neg hq,if_pos hs,hs,← hsp]
      exact splitFrom_slash (A:=msvcrt) true m (some t) (quoteLoop (m+1) arg ++ s)
    · obtain ⟨t',m',hl,he,hsp⟩ := ih 0 (t ++ List.replicate m BACKSLASH ++ [c]) (by simp [hs])
      refine ⟨t',m',hl,by simpa using he,?_⟩
      rw [quoteLoop,if_neg hq,if_neg hs,← hsp]
      exact splitFrom_char (A:=msvcrt) hs hq (fun _ => rfl) m (some t) (quoteLoop 0 arg ++ s)

/-- A quoted argument reads as itself but for its final backslashes, `m` of them:
they are halved when `m` is even and swallow the closing quote when it is odd. -/
theorem split_quoted (arg s : List WCHAR) :
    ∃ t m, t.getLast? ≠ some BACKSLASH ∧ t ++ List.replicate m BACKSLASH = arg ∧
      split msvcrt (QUOTE :: quoteLoop 0 arg ++ [QUOTE] ++ s) =
        if m % 2 = 0 then
          splitFrom msvcrt false 0 (some (t ++ List.replicate (m/2) BACKSLASH)) s
        else
          splitFrom msvcrt true 0
            (some (t ++ List.replicate (m/2) BACKSLASH ++ [QUOTE])) s := by
  obtain ⟨t,m,hl,he,hsp⟩ := splitFrom_quoteLoop arg 0 [] (QUOTE::s) (by simp)
  refine ⟨t,m,hl,by simpa using he,?_⟩
  have hopen := splitFrom_quote (A:=msvcrt) false 0 none (quoteLoop 0 arg ++ QUOTE::s)
  have hclose := splitFrom_quote (A:=msvcrt) true m (some t) s
  simp only [Nat.zero_mod,if_true,Nat.zero_div,List.replicate_zero,List.append_nil,
    Option.getD_none,Bool.not_false] at hopen
  calc split msvcrt (QUOTE :: quoteLoop 0 arg ++ [QUOTE] ++ s)
      = splitFrom msvcrt true 0 (some []) (quoteLoop 0 arg ++ QUOTE::s) := by
        simpa [split] using hopen
    _ = splitFrom msvcrt true m (some t) (QUOTE::s) := hsp
    _ = _ := hclose

/-- The arguments that reach the child unchanged: non-empty, and either quoted
without a final backslash or unquoted without a blank. -/
def Survives (arg : List WCHAR) : Prop :=
  arg ≠ [] ∧ (needsQuote arg = true → arg.getLast? ≠ some BACKSLASH) ∧
    (needsQuote arg = false → SPACE ∉ arg ∧ TAB ∉ arg)

instance (arg : List WCHAR) : Decidable (Survives arg) := by
  unfold Survives
  infer_instance

theorem split_encode {arg s : List WCHAR} (h : Survives arg) (hs : Stops msvcrt s) :
    split msvcrt (encode arg ++ s) = arg :: split msvcrt s := by
  obtain ⟨hne,hquoted,hplain⟩ := h
  cases hn : needsQuote arg with
  | false =>
    obtain ⟨hsp,htab⟩ := hplain hn
    have hb : ∀ c ∈ arg, msvcrt.blank c = false := by
      intro c hc
      rw [Bool.eq_false_iff,ne_eq,blank_iff]
      rintro (rfl | rfl)
      · exact hsp hc
      · exact htab hc
    rw [encode,if_neg (by simp [hn])]
    exact split_word hne (quote_notMem hn) hb hs
  | true =>
    obtain ⟨t,m,hl,he,hsp⟩ := split_quoted arg s
    have hm : m = 0 := by
      by_contra h0
      apply hquoted hn
      obtain ⟨k,rfl⟩ := Nat.exists_eq_succ_of_ne_zero h0
      rw [← he,List.replicate_succ']
      simp
    subst hm
    have ht : t = arg := by simpa using he
    rw [encode,if_pos hn,hsp]
    simpa [ht] using splitFrom_stops hs 0 t

/-- The first argument read back from the text of a non-empty one is not empty. -/
theorem split_encode_head {arg : List WCHAR} (h : arg ≠ []) (s : List WCHAR) :
    (split msvcrt (encode arg ++ s)).head? ≠ some [] := by
  cases hn : needsQuote arg with
  | false =>
    rw [encode,if_neg (by simp [hn])]
    obtain ⟨c,w,rfl⟩ := List.exists_cons_of_ne_nil h
    have hc : ¬(c = SPACE ∨ c = TAB ∨ c = QUOTE) := by
      intro hc
      simp [needsQuote_separator hc] at hn
    by_cases hs : c = BACKSLASH
    · obtain ⟨u,rest,he,hu⟩ := splitFrom_head (A:=msvcrt) (w ++ s) false 1 []
      have h₁ := splitFrom_slash (A:=msvcrt) false 0 none (w ++ s)
      simp only [msvcrt_slash,Option.getD_none,Nat.zero_add] at h₁
      simp [hs,split,h₁,he,hu]
    · have hb : msvcrt.blank c = true → false = true :=
        fun hb => absurd ((blank_iff.mp hb).imp_right Or.inl) hc
      have hq : c ≠ QUOTE := fun hq => hc (.inr (.inr hq))
      obtain ⟨u,rest,he,-⟩ := splitFrom_head (A:=msvcrt) (w ++ s) false 0 [c]
      have h₁ := splitFrom_char (A:=msvcrt) hs hq hb 0 none (w ++ s)
      simp only [Option.getD_none,List.replicate_zero,List.append_nil,List.nil_append] at h₁
      simp [split,h₁,he]
  | true =>
    obtain ⟨t,m,hl,he,hsp⟩ := split_quoted arg s
    rw [encode,if_pos hn,hsp]
    split_ifs with hm
    · obtain ⟨u,rest,hh,-⟩ := splitFrom_head (A:=msvcrt) s false 0
        (t ++ List.replicate (m/2) BACKSLASH)
      have ht : t = [] → m/2 ≠ 0 := by
        rintro rfl h0
        have hm0 : m = 0 := by omega
        exact h (by simp [← he,hm0])
      rw [hh,List.head?_cons,ne_eq,Option.some_inj]
      intro hnil
      simp only [List.append_eq_nil_iff,List.replicate_eq_nil_iff] at hnil
      exact ht hnil.1.1 hnil.1.2
    · obtain ⟨u,rest,hh,-⟩ := splitFrom_head (A:=msvcrt) s true 0
        (t ++ List.replicate (m/2) BACKSLASH ++ [QUOTE])
      rw [hh]
      simp

theorem split_commandLine_head (argv : List (List WCHAR)) :
    (split msvcrt (commandLine argv)).head? ≠ some [] := by
  induction argv with
  | nil => simp [commandLine,concatenate]
  | cons arg argv ih =>
    rw [commandLine_cons]
    by_cases h : arg = []
    · subst h
      simpa [encode,needsQuote,split_encodeTail] using ih
    · exact split_encode_head h _

/-- An argument left unquoted is read back up to its first blank. -/
theorem split_unquoted_ne {arg s : List WCHAR} (hn : needsQuote arg = false)
    (hb : ¬(SPACE ∉ arg ∧ TAB ∉ arg)) : (split msvcrt (arg ++ s)).head? ≠ some arg := by
  let before := arg.takeWhile fun d => !msvcrt.blank d
  let rest := arg.dropWhile fun d => !msvcrt.blank d
  have hw : before ++ rest = arg := List.takeWhile_append_dropWhile
  have hblank : ∀ d ∈ before, msvcrt.blank d = false := by
    intro d hd
    simpa using List.mem_takeWhile_imp hd
  have hrest : rest ≠ [] := by
    intro hnil
    rw [hnil,List.append_nil] at hw
    refine hb ⟨fun hd => ?_,fun hd => ?_⟩
    · simpa using (hblank SPACE (hw ▸ hd)).symm.trans (blank_iff.mpr (.inl rfl))
    · simpa using (hblank TAB (hw ▸ hd)).symm.trans (blank_iff.mpr (.inr rfl))
  have hbefore : before ≠ [] := by
    intro hnil
    obtain ⟨c,w,rfl⟩ := List.exists_cons_of_ne_nil (l:=arg) (by rintro rfl; exact hrest rfl)
    have hc : msvcrt.blank c = true := by
      by_contra hc
      simp [before,hc] at hnil
    simp [needsQuote_separator ((blank_iff.mp hc).imp_right Or.inl)] at hn
  have hstop : Stops msvcrt (rest ++ s) := by
    intro d hd
    rw [List.head?_append_of_ne_nil _ hrest] at hd
    have hhead := List.head?_dropWhile_not (fun d => !msvcrt.blank d) arg
    simp only [rest] at hd
    rw [hd] at hhead
    simpa using hhead
  have hquote : QUOTE ∉ before := fun hq => quote_notMem hn (hw ▸ List.mem_append_left rest hq)
  rw [← hw,List.append_assoc,split_word hbefore hquote hblank hstop]
  simpa using hrest

/-- A quoted argument loses half of its final backslashes. -/
theorem split_quoted_ne {arg s : List WCHAR} (hlast : arg.getLast? = some BACKSLASH)
    (hs : Stops msvcrt s) :
    (split msvcrt (QUOTE :: quoteLoop 0 arg ++ [QUOTE] ++ s)).head? ≠ some arg := by
  obtain ⟨t,m,hl,he,hsp⟩ := split_quoted arg s
  have hm0 : m ≠ 0 := by
    rintro rfl
    rw [List.replicate_zero,List.append_nil] at he
    exact hl (he ▸ hlast)
  rw [hsp]
  split_ifs with hm
  · rw [splitFrom_stops hs]
    intro hh
    have heq : t ++ List.replicate (m/2) BACKSLASH = t ++ List.replicate m BACKSLASH := by
      simpa [he] using hh
    have hlen := congrArg List.length heq
    simp only [List.length_append,List.length_replicate] at hlen
    omega
  · obtain ⟨u,rest,hh,-⟩ := splitFrom_head (A:=msvcrt) s true 0
      (t ++ List.replicate (m/2) BACKSLASH ++ [QUOTE])
    rw [hh]
    intro hx
    have happ : t ++ (List.replicate (m/2) BACKSLASH ++ QUOTE::u) =
        t ++ List.replicate m BACKSLASH := by simpa [he] using hx
    have heq := List.append_cancel_left happ
    have hmem : QUOTE ∈ List.replicate m BACKSLASH := by simp [← heq]
    exact absurd (List.eq_of_mem_replicate hmem) (by decide)

/-- A non-empty argument that does not survive is read back as something else. -/
theorem split_encode_ne {arg s : List WCHAR} (hne : arg ≠ []) (h : ¬Survives arg)
    (hs : Stops msvcrt s) : (split msvcrt (encode arg ++ s)).head? ≠ some arg := by
  cases hn : needsQuote arg with
  | false =>
    rw [encode,if_neg (by simp [hn])]
    exact split_unquoted_ne hn fun hb => h ⟨hne,by simp [hn],fun _ => hb⟩
  | true =>
    have hlast : arg.getLast? = some BACKSLASH := by
      by_contra hlast
      exact h ⟨hne,fun _ => hlast,by simp [hn]⟩
    rw [encode,if_pos hn]
    exact split_quoted_ne hlast hs

theorem split_commandLine_of_survives {argv : List (List WCHAR)}
    (h : ∀ arg ∈ argv, Survives arg) : split msvcrt (commandLine argv) = argv := by
  induction argv with
  | nil => rfl
  | cons arg argv ih =>
    obtain ⟨harg,hargv⟩ := List.forall_mem_cons.mp h
    rw [commandLine_cons,split_encode harg (encodeTail_stops argv),split_encodeTail,ih hargv]

/-- The child reads back exactly the arguments it was given if and only if each
of them survives. -/
theorem split_commandLine_iff (argv : List (List WCHAR)) :
    split msvcrt (commandLine argv) = argv ↔ ∀ arg ∈ argv, Survives arg := by
  induction argv with
  | nil => simp [commandLine,concatenate]
  | cons arg argv ih =>
    rw [commandLine_cons,List.forall_mem_cons,← ih,← split_encodeTail]
    by_cases hs : Survives arg
    · rw [split_encode hs (encodeTail_stops argv)]
      simp [hs]
    · simp only [hs,false_and,iff_false]
      intro h
      have hhead : (split msvcrt (encode arg ++ encodeTail argv)).head? = some arg := by
        rw [h]; rfl
      by_cases hne : arg = []
      · subst hne
        apply split_commandLine_head argv
        simpa [encode,needsQuote,split_encodeTail] using hhead
      · exact split_encode_ne hne hs (encodeTail_stops argv) hhead

/-- An empty argument leaves only its separator behind and is lost. -/
theorem commandLine_loses_empty_argument :
    ¬ ∀ (prog : List WCHAR) (args : List (List WCHAR)), prog ≠ [] → QUOTE ∉ prog →
      split msvcrt (commandLine (prog::args)) = prog::args := by
  intro h
  exact absurd (h (wide "app") [[]] (by decide) (by decide)) (by decide)

example : ¬Survives [BACKSLASH,SPACE] ∧ ¬Survives [SPACE,BACKSLASH] ∧
    Survives [BACKSLASH,BACKSLASH,QUOTE,SPACE] := by
  decide

/-- A space, a tab or a double quote is in the argument. -/
def HasSeparator (arg : List WCHAR) : Prop := ∃ c ∈ arg, c = SPACE ∨ c = TAB ∨ c = QUOTE

/-- The number of backslashes at the end. -/
def slashRun (pre : List WCHAR) : ℕ := (pre.reverse.takeWhile (· = BACKSLASH)).length

/-- A double quote is in the argument, or a blank behind an even number of backslashes. -/
def ShowsSeparator (arg : List WCHAR) : Prop :=
  QUOTE ∈ arg ∨ ∃ pre c post, arg = pre ++ c::post ∧ (c = SPACE ∨ c = TAB) ∧ Even (slashRun pre)

theorem slashRun_cons (c : WCHAR) (pre : List WCHAR) :
    slashRun (c::pre) =
      slashRun pre + if c = BACKSLASH ∧ pre.all (· = BACKSLASH) then 1 else 0 := by
  have hall : (pre.reverse.takeWhile (· = BACKSLASH)).length = pre.reverse.length ↔
      pre.all (· = BACKSLASH) := by
    rw [← List.all_reverse,List.all_eq_true]
    exact ⟨fun hlen => List.takeWhile_eq_self_iff.mp ((List.takeWhile_prefix _).eq_of_length hlen),
      fun h => congrArg List.length (List.takeWhile_eq_self_iff.mpr h)⟩
  rw [slashRun,List.reverse_cons,List.takeWhile_append,slashRun]
  by_cases h : pre.all (· = BACKSLASH)
  · rw [if_pos (hall.mpr h),hall.mpr h]
    by_cases hc : c = BACKSLASH
    · rw [if_pos ⟨hc,h⟩,List.takeWhile_cons_of_pos (by simpa using hc)]
      simp
    · rw [if_neg fun hh => hc hh.1,List.takeWhile_cons_of_neg (by simpa using hc)]
      simp
  · rw [if_neg fun hh => h (hall.mp hh),if_neg fun hh => h hh.2,Nat.add_zero]

/-- The character behind a backslash ends no run of another parity. -/
theorem even_slashRun_pair (c : WCHAR) (pre : List WCHAR) :
    Even (slashRun (BACKSLASH::c::pre)) ↔ Even (slashRun pre) := by
  have hall : (c::pre).all (· = BACKSLASH) ↔ c = BACKSLASH ∧ pre.all (· = BACKSLASH) := by
    rw [List.all_cons,Bool.and_eq_true,decide_eq_true_eq]
  rw [slashRun_cons,slashRun_cons]
  by_cases h : c = BACKSLASH ∧ pre.all (· = BACKSLASH)
  · rw [if_pos h,if_pos ⟨rfl,hall.mpr h⟩]
    simp [Nat.even_add,parity_simps]
  · rw [if_neg h,if_neg fun hh => h (hall.mp hh.2),Nat.add_zero]

theorem showsSeparator_nil : ¬ShowsSeparator [] := by simp [ShowsSeparator]

theorem showsSeparator_head {c : WCHAR} (hc : c = SPACE ∨ c = TAB ∨ c = QUOTE)
    (arg : List WCHAR) : ShowsSeparator (c::arg) := by
  rcases hc with rfl | rfl | rfl
  · exact .inr ⟨[],SPACE,arg,rfl,.inl rfl,by decide⟩
  · exact .inr ⟨[],TAB,arg,rfl,.inr rfl,by decide⟩
  · exact .inl List.mem_cons_self

theorem showsSeparator_plain {c : WCHAR} (hc : ¬(c = SPACE ∨ c = TAB ∨ c = QUOTE))
    (hs : c ≠ BACKSLASH) (arg : List WCHAR) : ShowsSeparator (c::arg) ↔ ShowsSeparator arg := by
  have hrun (pre : List WCHAR) : slashRun (c::pre) = slashRun pre := by
    rw [slashRun_cons,if_neg fun h => hs h.1,Nat.add_zero]
  have hquote : QUOTE ∈ c::arg ↔ QUOTE ∈ arg := by
    rw [List.mem_cons]
    exact or_iff_right fun h => hc (.inr (.inr h.symm))
  refine or_congr hquote ⟨?_,?_⟩
  · rintro ⟨pre,x,post,heq,hx,heven⟩
    cases pre with
    | nil =>
      obtain rfl := (List.cons.inj heq).1
      exact absurd (hx.imp_right .inl) hc
    | cons y pre =>
      obtain ⟨rfl,rfl⟩ := List.cons.inj heq
      exact ⟨pre,x,post,rfl,hx,hrun pre ▸ heven⟩
  · rintro ⟨pre,x,post,rfl,hx,heven⟩
    exact ⟨c::pre,x,post,rfl,hx,(hrun pre).symm ▸ heven⟩

/-- A backslash hides the blank behind it, and the double quote behind it is seen. -/
theorem showsSeparator_slash {c : WCHAR} (hc : c ≠ QUOTE) (arg : List WCHAR) :
    ShowsSeparator (BACKSLASH::c::arg) ↔ ShowsSeparator arg := by
  have hquote : QUOTE ∈ BACKSLASH::c::arg ↔ QUOTE ∈ arg := by
    rw [List.mem_cons,List.mem_cons,or_iff_right (by decide),or_iff_right hc.symm]
  refine or_congr hquote ⟨?_,?_⟩
  · rintro ⟨pre,x,post,heq,hx,heven⟩
    match pre with
    | [] =>
      obtain rfl := (List.cons.inj heq).1
      exact absurd hx (by decide)
    | [y] =>
      obtain rfl := (List.cons.inj heq).1
      exact absurd heven (by decide)
    | y::z::pre =>
      obtain ⟨rfl,htail⟩ := List.cons.inj heq
      obtain ⟨rfl,rfl⟩ := List.cons.inj htail
      exact ⟨pre,x,post,rfl,hx,(even_slashRun_pair c pre).mp heven⟩
  · rintro ⟨pre,x,post,rfl,hx,heven⟩
    exact ⟨BACKSLASH::c::pre,x,post,rfl,hx,(even_slashRun_pair c pre).mpr heven⟩

instance (arg : List WCHAR) : Decidable (HasSeparator arg) :=
  inferInstanceAs (Decidable (∃ c ∈ arg, c = SPACE ∨ c = TAB ∨ c = QUOTE))

theorem ShowsSeparator.has {arg : List WCHAR} (h : ShowsSeparator arg) : HasSeparator arg := by
  rcases h with hquote | ⟨pre,c,post,rfl,hc,-⟩
  · exact ⟨QUOTE,hquote,.inr (.inr rfl)⟩
  · exact ⟨c,List.mem_append_right pre List.mem_cons_self,hc.imp_right .inl⟩

/-- What the scan finds, whatever runs of backslashes it goes through. -/
theorem needsQuote_iff (arg : List WCHAR) : needsQuote arg = true ↔ ShowsSeparator arg := by
  fun_induction needsQuote arg with
  | case1 => exact iff_of_false Bool.false_ne_true showsSeparator_nil
  | case2 c arg hc => exact iff_of_true rfl (showsSeparator_head hc arg)
  | case3 => exact iff_of_false Bool.false_ne_true fun h => absurd h.has (by decide)
  | case4 arg => exact iff_of_true rfl (.inl (by simp))
  | case5 c arg hc _ ih => exact ih.trans (showsSeparator_slash hc arg).symm
  | case6 c arg hc hs ih => exact ih.trans (showsSeparator_plain hc hs arg).symm

/-- The decision is exact if and only if a separator, where there is one, is not hidden:
there is a double quote, or a blank behind an even number of backslashes. -/
theorem needsQuote_exact_iff (arg : List WCHAR) :
    (needsQuote arg = true ↔ HasSeparator arg) ↔ (HasSeparator arg → ShowsSeparator arg) := by
  rw [needsQuote_iff]
  exact ⟨Iff.mpr,fun h => ⟨ShowsSeparator.has,h⟩⟩

/-- The blank of `a\\ b` is taken for escaped. -/
theorem escaped_blank_missed :
    needsQuote (wide "a\\ b") = false ∧ HasSeparator (wide "a\\ b") := by
  decide

end CommandLine
end DrMingw
