import Mathlib.Tactic

/-! Splitting a command line into arguments by the Microsoft C rules, over any
alphabet with a quote, a backslash and a class of blanks. -/
namespace DrMingw
namespace ArgumentSplit

/-- The characters the splitter gives a meaning to, pairwise different. -/
structure Alphabet (C : Type) where
  blank : C → Bool
  quote : C
  slash : C
  quote_ne_slash : quote ≠ slash
  blank_quote : blank quote = false
  blank_slash : blank slash = false

section
variable {C : Type} {A : Alphabet C}

theorem blank_ne_quote {c : C} (hc : A.blank c = true) : c ≠ A.quote := by
  rintro rfl
  simp [A.blank_quote] at hc

theorem blank_ne_slash {c : C} (hc : A.blank c = true) : c ≠ A.slash := by
  rintro rfl
  simp [A.blank_slash] at hc

end

variable {C : Type} [DecidableEq C] (A : Alphabet C)

/-- One left-to-right pass. The arguments are whether the position is inside
quotes, the number of backslashes read but not yet interpreted, and the argument
being collected (`none` between arguments). -/
def splitFrom : Bool → ℕ → Option (List C) → List C → List (List C)
  | _, _, none, [] => []
  | _, n, some t, [] => [t ++ List.replicate n A.slash]
  | q, n, tok, c::cs =>
    if c = A.slash then splitFrom q (n+1) (some (tok.getD [])) cs
    else if c = A.quote then
      if n % 2 = 0 then splitFrom (!q) 0 (some (tok.getD [] ++ List.replicate (n/2) A.slash)) cs
      else splitFrom q 0 (some (tok.getD [] ++ List.replicate (n/2) A.slash ++ [A.quote])) cs
    else if A.blank c && !q then
      match tok with
      | none => splitFrom false 0 none cs
      | some t => (t ++ List.replicate n A.slash) :: splitFrom false 0 none cs
    else splitFrom q 0 (some (tok.getD [] ++ List.replicate n A.slash ++ [c])) cs

/-- Arguments of a whole command line. -/
def split (s : List C) : List (List C) := splitFrom A false 0 none s

variable {A}

@[simp] theorem split_nil : split A [] = [] := rfl

theorem splitFrom_slash (q : Bool) (n : ℕ) (tok : Option (List C)) (cs : List C) :
    splitFrom A q n tok (A.slash::cs) = splitFrom A q (n+1) (some (tok.getD [])) cs := by
  cases tok <;> simp [splitFrom]

theorem splitFrom_quote (q : Bool) (n : ℕ) (tok : Option (List C)) (cs : List C) :
    splitFrom A q n tok (A.quote::cs) =
      if n % 2 = 0 then splitFrom A (!q) 0 (some (tok.getD [] ++ List.replicate (n/2) A.slash)) cs
      else splitFrom A q 0
        (some (tok.getD [] ++ List.replicate (n/2) A.slash ++ [A.quote])) cs := by
  cases tok <;> simp [splitFrom,A.quote_ne_slash]

theorem split_blank {c : C} (hc : A.blank c = true) (cs : List C) :
    split A (c::cs) = split A cs := by
  simp [split,splitFrom,blank_ne_quote hc,blank_ne_slash hc,hc]

theorem splitFrom_blank {c : C} (hc : A.blank c = true) (n : ℕ) (t cs : List C) :
    splitFrom A false n (some t) (c::cs) = (t ++ List.replicate n A.slash) :: split A cs := by
  simp [split,splitFrom,blank_ne_quote hc,blank_ne_slash hc,hc]

/-- An ordinary character makes the pending backslashes literal. -/
theorem splitFrom_char {c : C} {q : Bool} (hs : c ≠ A.slash) (hq : c ≠ A.quote)
    (hb : A.blank c = true → q = true) (n : ℕ) (tok : Option (List C)) (cs : List C) :
    splitFrom A q n tok (c::cs) =
      splitFrom A q 0 (some (tok.getD [] ++ List.replicate n A.slash ++ [c])) cs := by
  have hh : (A.blank c && !q) = false := by
    cases hbc : A.blank c
    · rfl
    · simp [hb hbc]
  cases tok <;> simp [splitFrom,hs,hq,hh]

theorem splitFrom_slashes (q : Bool) (n k : ℕ) (t cs : List C) :
    splitFrom A q n (some t) (List.replicate k A.slash ++ cs) =
      splitFrom A q (n+k) (some t) cs := by
  induction k generalizing n with
  | zero => simp
  | succ k ih =>
    rw [List.replicate_succ,List.cons_append,splitFrom_slash,Option.getD_some,ih]
    congr 1
    omega

/-- What has been collected stays a prefix of the argument, and a pending
backslash always adds something to it. -/
theorem splitFrom_head (s : List C) (q : Bool) (n : ℕ) (t : List C) :
    ∃ u rest, splitFrom A q n (some t) s = (t ++ u) :: rest ∧ (0 < n → u ≠ []) := by
  induction s generalizing q n t with
  | nil => exact ⟨List.replicate n A.slash,[],rfl,by simp; omega⟩
  | cons c cs ih =>
    by_cases hs : c = A.slash
    · obtain ⟨u,rest,he,hu⟩ := ih q (n+1) t
      exact ⟨u,rest,by rw [hs,splitFrom_slash]; exact he,fun _ => hu (by omega)⟩
    by_cases hq : c = A.quote
    · rw [hq,splitFrom_quote]
      split_ifs with hn
      · obtain ⟨u,rest,he,-⟩ := ih (!q) 0 (t ++ List.replicate (n/2) A.slash)
        refine ⟨List.replicate (n/2) A.slash ++ u,rest,by simpa using he,fun h => ?_⟩
        have hh : n/2 ≠ 0 := by omega
        simp [hh]
      · obtain ⟨u,rest,he,-⟩ := ih q 0 (t ++ List.replicate (n/2) A.slash ++ [A.quote])
        exact ⟨List.replicate (n/2) A.slash ++ A.quote::u,rest,by simpa using he,by simp⟩
    by_cases hb : A.blank c = true ∧ q = false
    · obtain ⟨hbc,rfl⟩ := hb
      rw [splitFrom_blank hbc]
      exact ⟨List.replicate n A.slash,_,rfl,by simp; omega⟩
    · have hb' : A.blank c = true → q = true := by
        intro h
        cases q
        · exact absurd ⟨h,rfl⟩ hb
        · rfl
      obtain ⟨u,rest,he,-⟩ := ih q 0 (t ++ List.replicate n A.slash ++ [c])
      rw [splitFrom_char hs hq hb']
      exact ⟨List.replicate n A.slash ++ c::u,rest,by simpa using he,by simp⟩

/-- Where an argument can stop: the end of the line or a blank. -/
def Stops (A : Alphabet C) (s : List C) : Prop := ∀ c ∈ s.head?, A.blank c = true

theorem splitFrom_stops {s : List C} (hs : Stops A s) (n : ℕ) (t : List C) :
    splitFrom A false n (some t) s = (t ++ List.replicate n A.slash) :: split A s := by
  cases s with
  | nil => rfl
  | cons c cs =>
    have hc : A.blank c = true := hs c (by simp)
    rw [splitFrom_blank hc,split_blank hc]

/-- A word without quotes and blanks is collected as it stands, whatever
backslashes it has. -/
theorem splitFrom_word {w : List C} (hq : A.quote ∉ w) (hb : ∀ c ∈ w, A.blank c = false)
    (q : Bool) (n : ℕ) (t s : List C) :
    ∃ t' n', t' ++ List.replicate n' A.slash = t ++ List.replicate n A.slash ++ w ∧
      splitFrom A q n (some t) (w ++ s) = splitFrom A q n' (some t') s := by
  induction w generalizing n t with
  | nil => exact ⟨t,n,by simp,rfl⟩
  | cons c w ih =>
    have hqw : A.quote ∉ w := fun h => hq (by simp [h])
    have hbw : ∀ c ∈ w, A.blank c = false := fun d hd => hb d (by simp [hd])
    by_cases hs : c = A.slash
    · obtain ⟨t',n',he,hsp⟩ := ih hqw hbw (n+1) t
      refine ⟨t',n',?_,by rw [List.cons_append,hs,splitFrom_slash]; exact hsp⟩
      simpa [hs,List.replicate_succ'] using he
    · have hcq : c ≠ A.quote := by rintro rfl; simp at hq
      have hcb : A.blank c = true → q = true := by simp [hb c (by simp)]
      obtain ⟨t',n',he,hsp⟩ := ih hqw hbw 0 (t ++ List.replicate n A.slash ++ [c])
      refine ⟨t',n',by simpa using he,?_⟩
      rw [List.cons_append,splitFrom_char hs hcq hcb]
      exact hsp

/-- A non-empty word without quotes and blanks, up to a stop, is one argument. -/
theorem split_word {w s : List C} (hw : w ≠ []) (hq : A.quote ∉ w)
    (hb : ∀ c ∈ w, A.blank c = false) (hs : Stops A s) : split A (w ++ s) = w :: split A s := by
  obtain ⟨c,w,rfl⟩ := List.exists_cons_of_ne_nil hw
  have hqw : A.quote ∉ w := fun h => hq (by simp [h])
  have hbw : ∀ c ∈ w, A.blank c = false := fun d hd => hb d (by simp [hd])
  have finish : ∀ n t, t ++ List.replicate n A.slash = [c] →
      splitFrom A false n (some t) (w ++ s) = (c::w) :: split A s := by
    intro n t ht
    obtain ⟨t',n',he,hsp⟩ := splitFrom_word hqw hbw false n t s
    rw [hsp,splitFrom_stops hs,he,ht]
    rfl
  by_cases hc : c = A.slash
  · rw [split,List.cons_append,hc,splitFrom_slash,← hc]
    exact finish 1 [] (by simp [hc])
  · have hcq : c ≠ A.quote := by rintro rfl; simp at hq
    have hcb : A.blank c = true → false = true := by simp [hb c (by simp)]
    rw [split,List.cons_append,splitFrom_char hc hcq hcb]
    exact finish 0 _ (by simp)

end ArgumentSplit
end DrMingw
