import Mathlib.Tactic

/-! Deterministic machines over finite input streams: states reached, outputs
emitted, admissible streams, and the induction rules every run argument uses. -/
namespace DrMingw

/-- One input gives the next state and the outputs emitted on the way. -/
structure Machine (S I O : Type) where
  step : S → I → S × List O

namespace Machine

variable {S I O : Type}

def next (M : Machine S I O) (s : S) (i : I) : S := (M.step s i).1

def emit (M : Machine S I O) (s : S) (i : I) : List O := (M.step s i).2

/-- The state reached once the whole stream has been consumed. -/
def after (M : Machine S I O) (s : S) (is : List I) : S := is.foldl M.next s

/-- All outputs of a run, in order. -/
def trace (M : Machine S I O) : S → List I → List O
  | _, [] => []
  | s, i::is => M.emit s i ++ M.trace (M.next s i) is

/-- Every input of the stream is admissible in the state that receives it. -/
def Along (M : Machine S I O) (ok : S → I → Prop) : S → List I → Prop
  | _, [] => True
  | s, i::is => ok s i ∧ M.Along ok (M.next s i) is

/-- `C` holds of every input together with the inputs that precede it. -/
def AtEach (C : List I → I → Prop) (is : List I) : Prop :=
  ∀ pre i post, is = pre ++ i::post → C pre i

variable (M : Machine S I O)

@[simp] theorem after_nil (s : S) : M.after s [] = s := rfl

@[simp] theorem after_cons (s : S) (i : I) (is : List I) :
    M.after s (i::is) = M.after (M.next s i) is := rfl

theorem after_append (s : S) (is js : List I) :
    M.after s (is ++ js) = M.after (M.after s is) js := by
  simp [after,List.foldl_append]

theorem after_concat (s : S) (is : List I) (i : I) :
    M.after s (is ++ [i]) = M.next (M.after s is) i := by
  simp [after_append]

@[simp] theorem trace_nil (s : S) : M.trace s [] = [] := rfl

@[simp] theorem trace_cons (s : S) (i : I) (is : List I) :
    M.trace s (i::is) = M.emit s i ++ M.trace (M.next s i) is := rfl

theorem trace_append (s : S) (is js : List I) :
    M.trace s (is ++ js) = M.trace s is ++ M.trace (M.after s is) js := by
  induction is generalizing s with
  | nil => rfl
  | cons i is ih => simp [ih,List.append_assoc]

variable {M} {ok : S → I → Prop}

theorem along_append {s : S} {is js : List I} :
    M.Along ok s (is ++ js) ↔ M.Along ok s is ∧ M.Along ok (M.after s is) js := by
  induction is generalizing s with
  | nil => simp [Along]
  | cons i is ih => simp [Along,ih,and_assoc]

theorem along_concat {s : S} {is : List I} {i : I} :
    M.Along ok s (is ++ [i]) ↔ M.Along ok s is ∧ ok (M.after s is) i := by
  simp [along_append,Along]

theorem along_of_forall {C : I → Prop} {s : S} {is : List I} (h : ∀ i ∈ is, C i) :
    M.Along (fun _ => C) s is := by
  induction is generalizing s with
  | nil => trivial
  | cons i is ih =>
    exact ⟨h i List.mem_cons_self,ih fun j hj => h j (List.mem_cons_of_mem i hj)⟩

theorem Along.imp {ok' : S → I → Prop} {s : S} {is : List I} (h : M.Along ok s is)
    (himp : ∀ s i, ok s i → ok' s i) : M.Along ok' s is := by
  induction is generalizing s with
  | nil => trivial
  | cons i is ih => exact ⟨himp s i h.1,ih h.2⟩

/-- Admissibility at a position, read off a split of the stream there. -/
theorem Along.at_split {s : S} {pre post : List I} {i : I}
    (h : M.Along ok s (pre ++ i::post)) : ok (M.after s pre) i :=
  (along_append.mp h).2.1

theorem atEach_nil (C : List I → I → Prop) : AtEach C [] :=
  fun _ _ _ h => by simp at h

theorem atEach_cons {C : List I → I → Prop} {i : I} {is : List I} :
    AtEach C (i::is) ↔ C [] i ∧ AtEach (fun pre => C (i::pre)) is := by
  constructor
  · intro h
    exact ⟨h [] i is rfl,fun pre j post hj => h (i::pre) j post (by simp [hj])⟩
  · rintro ⟨hi,h⟩ pre j post hj
    cases pre with
    | nil =>
      obtain ⟨rfl,-⟩ := List.cons.inj hj
      exact hi
    | cons k pre =>
      obtain ⟨rfl,hj'⟩ := List.cons.inj hj
      exact h pre j post hj'

theorem atEach_concat {C : List I → I → Prop} {is : List I} {i : I} :
    AtEach C (is ++ [i]) ↔ AtEach C is ∧ C is i := by
  constructor
  · intro h
    exact ⟨fun pre j post hj => h pre j (post ++ [i]) (by simp [hj]),h is i [] rfl⟩
  · rintro ⟨h,hi⟩ pre j post hj
    rcases List.eq_nil_or_concat post with rfl | ⟨post,k,rfl⟩
    · obtain ⟨rfl,he⟩ := List.append_inj' hj rfl
      obtain rfl : i = j := by simpa using he
      exact hi
    · have hj' : is ++ [i] = (pre ++ j::post) ++ [k] := by simpa using hj
      exact h pre j post (List.append_inj' hj' rfl).1

theorem atEach_iff_take {C : List I → I → Prop} {is : List I} :
    AtEach C is ↔ ∀ n (h : n < is.length), C (is.take n) is[n] := by
  constructor
  · intro h n hn
    exact h _ _ (is.drop (n + 1)) (by simp)
  · rintro h pre i post rfl
    simpa using h pre.length (by simp)

instance {C : List I → I → Prop} [∀ pre i, Decidable (C pre i)] (is : List I) :
    Decidable (AtEach C is) := decidable_of_iff _ atEach_iff_take.symm

/-- An invariant kept by every admissible step holds after every admissible run. -/
theorem after_invariant {Inv : S → Prop}
    (hstep : ∀ s i, Inv s → ok s i → Inv (M.next s i))
    {s : S} {is : List I} (hs : Inv s) (hok : M.Along ok s is) : Inv (M.after s is) := by
  induction is generalizing s with
  | nil => exact hs
  | cons i is ih => exact ih (hstep s i hs hok.1) hok.2

/-- An invariant kept by every step whatever the input holds after every run. -/
theorem after_invariant_all {Inv : S → Prop} (hstep : ∀ s i, Inv s → Inv (M.next s i))
    {s : S} (hs : Inv s) (is : List I) : Inv (M.after s is) := by
  induction is generalizing s with
  | nil => exact hs
  | cons i is ih => exact ih (hstep s i hs)

section Projection

variable {T J P : Type} {N : Machine T J P} {project : S → I → Option J}

/-- The inputs of a coarser machine that a run stands for: a step is one of its steps, or
changes nothing of what it tells. -/
def projected (M : Machine S I O) (project : S → I → Option J) : S → List I → List J
  | _, [] => []
  | s, i::is => (project s i).toList ++ M.projected project (M.next s i) is

/-- A run of the finer machine ends where the coarser one does. -/
theorem after_projected (abs : S → T)
    (h : ∀ s i, abs (M.next s i) = (project s i).elim (abs s) (N.next (abs s)))
    (s : S) (is : List I) : N.after (abs s) (M.projected project s is) = abs (M.after s is) := by
  induction is generalizing s with
  | nil => rfl
  | cons i is ih =>
    rw [after_cons,← ih,h,projected]
    cases project s i <;> rfl

/-- The coarser run has no state that the finer one does not pass. -/
theorem projected_split {s : S} {is : List I} {pre post : List J}
    (h : M.projected project s is = pre ++ post) :
    ∃ q r, is = q ++ r ∧ M.projected project s q = pre := by
  induction is generalizing s pre with
  | nil => exact ⟨[],[],rfl,(List.append_eq_nil_iff.mp h.symm).1.symm⟩
  | cons i is ih =>
    rw [projected] at h
    cases hp : project s i with
    | none =>
      rw [hp] at h
      obtain ⟨q,r,rfl,hq⟩ := ih h
      exact ⟨i::q,r,rfl,by simp [projected,hp,hq]⟩
    | some j =>
      cases pre with
      | nil => exact ⟨[],i::is,rfl,rfl⟩
      | cons j' pre =>
        simp only [hp,Option.toList_some,List.cons_append,List.nil_append,List.cons.injEq] at h
        obtain ⟨rfl,h⟩ := h
        obtain ⟨q,r,rfl,hq⟩ := ih h
        exact ⟨i::q,r,rfl,by simp [projected,hp,hq]⟩

end Projection

/-- The machine of a step that need not return; once it has not, nothing follows. -/
def ofPartial (step : S → I → Option S) : Machine (Option S) I Empty where
  step s i := (s.bind fun s => step s i,[])

theorem ofPartial_concat {step : S → I → Option S} {s₀ : Option S} {is : List I} {i : I}
    {s' : S} : (ofPartial step).after s₀ (is ++ [i]) = some s' ↔
      ∃ s, (ofPartial step).after s₀ is = some s ∧ step s i = some s' := by
  rw [after_concat]
  exact Option.bind_eq_some_iff

/-- What every step that returns carries on holds after every run that returns. -/
theorem ofPartial_run {step : S → I → Option S} {s₀ : S} {P : List I → S → Prop}
    (hnil : P [] s₀)
    (hstep : ∀ is i s s', (ofPartial step).after (some s₀) is = some s → P is s →
      step s i = some s' → P (is ++ [i]) s')
    {is : List I} {s : S} (hs : (ofPartial step).after (some s₀) is = some s) : P is s := by
  induction is using List.reverseRecOn generalizing s with
  | nil =>
    obtain rfl : s₀ = s := Option.some.inj hs
    exact hnil
  | append_singleton is i ih =>
    obtain ⟨s₁,hs₁,hi⟩ := ofPartial_concat.mp hs
    exact hstep is i s₁ s hs₁ (ih hs₁) hi

end Machine
end DrMingw
