import Mathlib.Computability.StateTransition
import Mathlib.Data.Set.Finite.Basic
import Mathlib.Data.Fintype.Card

/-! Chains made by a partial map: following it from a place ends, unless it comes by
some place twice. -/
namespace DrMingw
namespace Chain
open StateTransition Relation

variable {α : Type*} {next : α → Option α} {a c d : α}

/-- What is on a cycle stays on one. -/
theorem cycle_of_reaches (hc : Reaches₁ next c c) (h : Reaches next c d) : Reaches₁ next d d := by
  induction h with
  | refl => exact hc
  | tail _ hs ih => exact TransGen.tail' (reaches₁_fwd ih hs) hs

theorem eval_of_none (h : next a = none) : a ∈ eval next a := mem_eval.mpr ⟨.refl,h⟩

theorem eval_of_some (h : next a = some c) : eval next a = eval next c := reaches_eval (.single h)

theorem acyclic_of_ends (h : (eval next a).Dom) (hr : Reaches next a c) :
    ¬Reaches₁ next c c := by
  intro hc
  obtain ⟨d,hd⟩ := Part.dom_iff_mem.mp h
  rw [reaches_eval hr] at hd
  have hcd := cycle_of_reaches hc (mem_eval.mp hd).1
  exact eval_maximal₁ hd d hcd

/-- From each of finitely many places without a cycle there is an end. -/
theorem ends_of_acyclic (hfin : {c | Reaches next a c}.Finite)
    (h : ∀ c, Reaches next a c → ¬Reaches₁ next c c) : (eval next a).Dom := by
  have : Finite {c | Reaches next a c} := hfin
  let after : {c | Reaches next a c} → {c | Reaches next a c} → Prop :=
    fun d c => Reaches₁ next c d
  have : IsTrans _ after := ⟨fun _ _ _ h₁ h₂ => TransGen.trans h₂ h₁⟩
  have : Std.Irrefl after := ⟨fun c => h c c.2⟩
  have hwf : WellFounded after := Finite.wellFounded_of_trans_of_irrefl after
  have hall : ∀ c : {c | Reaches next a c}, (eval next c.1).Dom := by
    intro c
    induction c using hwf.induction with
    | h c ih =>
      cases hs : next c.1 with
      | none => exact Part.dom_iff_mem.mpr ⟨c,eval_of_none hs⟩
      | some d =>
        rw [eval_of_some hs]
        exact ih ⟨d,c.2.tail hs⟩ (.single hs)
  exact hall ⟨a,.refl⟩

/-- Where finitely many places can be reached, an end is reached exactly if none of
them leads back to itself. -/
theorem ends_iff_acyclic (hfin : {c | Reaches next a c}.Finite) :
    (eval next a).Dom ↔ ∀ c, Reaches next a c → ¬Reaches₁ next c c :=
  ⟨fun h _ => acyclic_of_ends h,ends_of_acyclic hfin⟩

/-- All places behind the first are values of the map. -/
theorem reaches_finite {s : Set α} (hs : s.Finite) (h : ∀ c d, next c = some d → d ∈ s) (a : α) :
    {c | Reaches next a c}.Finite := by
  refine (hs.insert a).subset fun c hc => ?_
  rcases ReflTransGen.cases_tail hc with rfl | ⟨b,-,hb⟩
  · exact Set.mem_insert c s
  · exact Set.mem_insert_of_mem a (h b c hb)

/-- What holds where the chain ends and is passed back along it holds at its start. -/
@[elab_as_elim]
theorem ends_induction {P : α → Prop} (back : ∀ c, (∀ d, next c = some d → P d) → P c)
    (a : α) (h : (eval next a).Dom) : P a := by
  obtain ⟨d,hd⟩ := Part.dom_iff_mem.mp h
  exact evalInduction hd fun c _ ih => back c ih

end Chain
end DrMingw
