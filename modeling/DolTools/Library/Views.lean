import DolTools.Library.Runs

/-! Runs of one system seen in another. A simulation may leave out steps that the second system
does not have, so that two runs agree as soon as they agree without these steps. A view turns
every step into a list of actions, and follows the actions of a whole run alone. -/
namespace Views
open Runs

variable {σ σ' ε ε' ω τ : Type*} {step : σ → ε → Option σ} {guard : σ → ε → Prop}
  {step' : σ' → ε' → Option σ'} {abs : ε → Option ε'} {R : σ → σ' → Prop}

/-- Every step is matched by the step that `abs` names, and a step without a name goes unseen. -/
structure Simulation (step : σ → ε → Option σ) (guard : σ → ε → Prop)
    (step' : σ' → ε' → Option σ') (abs : ε → Option ε') (R : σ → σ' → Prop) : Prop where
  matched : ∀ {s s' e e' t}, R s s' → guard s e → abs e = some e' → step s e = some t →
    ∃ t', step' s' e' = some t' ∧ R t t'
  unseen : ∀ {s s' e t}, R s s' → guard s e → abs e = none → step s e = some t → R t s'

/-- A run is followed by the run of its named steps. -/
theorem Simulation.run (h : Simulation step guard step' abs R) {s t : σ} {s' : σ'} {es : List ε}
    (hrun : Run step guard s es t) (hs : R s s') :
    ∃ t', Run step' (fun _ _ => True) s' (es.filterMap abs) t' ∧ R t t' := by
  induction hrun with
  | nil => exact ⟨s',.nil,hs⟩
  | @snoc es m e t head ok next ih =>
    obtain ⟨m',hm,hR⟩ := ih
    rw [List.filterMap_append]
    cases he : abs e with
    | none =>
      rw [List.filterMap_cons_none he, List.filterMap_nil, List.append_nil]
      exact ⟨m',hm,h.unseen hR ok he next⟩
    | some e' =>
      obtain ⟨t',hnext,ht⟩ := h.matched hR ok he next
      rw [List.filterMap_cons_some he, List.filterMap_nil]
      exact ⟨t',hm.snoc trivial hnext,ht⟩

/-- Two runs with the same named steps end in states that one state stands for. -/
theorem Simulation.agree (h : Simulation step guard step' abs R) {s t u : σ} {s' : σ'}
    {es fs : List ε} (hes : es.filterMap abs = fs.filterMap abs) (ht : Run step guard s es t)
    (hu : Run step guard s fs u) (hs : R s s') : ∃ m, R t m ∧ R u m := by
  obtain ⟨m,hm,htm⟩ := h.run ht hs
  obtain ⟨m',hm',hum⟩ := h.run hu hs
  rw [← hes] at hm'
  obtain rfl := hm.unique hm'
  exact ⟨m,htm,hum⟩

/-- The actions that the steps of a run show, in their order. -/
def trace (step : σ → ε → Option σ) (obs : σ → ε → List ω) (s : σ) : List ε → List ω
  | [] => []
  | e::es => obs s e ++ (step s e).elim [] (fun t => trace step obs t es)

variable {obs : σ → ε → List ω} {s t : σ} {es : List ε}

@[simp] theorem trace_nil : trace step obs s [] = [] := rfl

@[simp] theorem trace_singleton (e : ε) : trace step obs s [e] = obs s e := by
  rw [trace]
  cases step s e <;> exact List.append_nil _

theorem trace_append (h : Run step guard s es t) (fs : List ε) :
    trace step obs s (es ++ fs) = trace step obs s es ++ trace step obs t fs := by
  induction h generalizing fs with
  | nil => rfl
  | @snoc es m e t head ok next ih =>
    rw [List.append_assoc, ih, ih, trace_singleton, List.append_assoc, List.singleton_append,
      trace, next]
    rfl

theorem trace_snoc (h : Run step guard s es t) (e : ε) :
    trace step obs s (es ++ [e]) = trace step obs s es ++ obs t e := by
  rw [trace_append h, trace_singleton]

/-- A view that every step changes by its actions alone is changed so by a whole run. -/
theorem view_run (view : σ → τ) (act : τ → ω → τ)
    (hstep : ∀ s e t, guard s e → step s e = some t → view t = (obs s e).foldl act (view s))
    (h : Run step guard s es t) : view t = (trace step obs s es).foldl act (view s) := by
  induction h with
  | nil => rfl
  | @snoc es m e t head ok next ih =>
    rw [trace_snoc head, List.foldl_append, ← ih]
    exact hstep m e t ok next

end Views
