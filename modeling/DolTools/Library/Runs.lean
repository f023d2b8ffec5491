import Mathlib

/-! Guarded runs of a partial step function. A run grows at its end, so an invariant that
one guarded step keeps holds in every state a run reaches. A loop over a list is the
special case of a total step, with the guard read in the state each iteration starts from. -/
namespace Runs

variable {σ ε ι : Type*}

/-- Finite runs whose every step is defined and meets the guard where it is taken. -/
inductive Run (step : σ → ε → Option σ) (guard : σ → ε → Prop) (start : σ) :
    List ε → σ → Prop
  | nil : Run step guard start [] start
  | snoc {es s e t} (head : Run step guard start es s) (ok : guard s e)
      (next : step s e = some t) : Run step guard start (es ++ [e]) t

variable {step : σ → ε → Option σ} {guard : σ → ε → Prop} {start s t : σ} {es : List ε}

/-- An invariant kept by every guarded step holds after every run. -/
theorem Run.invariant {Inv : σ → Prop} (h : Run step guard start es s) (hstart : Inv start)
    (hstep : ∀ s e t, Inv s → guard s e → step s e = some t → Inv t) : Inv s := by
  induction h with
  | nil => exact hstart
  | snoc head ok next ih => exact hstep _ _ _ ih ok next

theorem Run.mono {guard' : σ → ε → Prop} (h : Run step guard start es s)
    (hg : ∀ s e, guard s e → guard' s e) : Run step guard' start es s := by
  induction h with
  | nil => exact .nil
  | snoc head ok next ih => exact ih.snoc (hg _ _ ok) next

/-- A part of the state that no event of the run hits is the same behind it. -/
theorem Run.frame {τ : Type*} {hit : ε → Prop} (get : σ → τ) (h : Run step guard start es s)
    (hframe : ∀ s e t, guard s e → ¬ hit e → step s e = some t → get t = get s)
    (hes : ∀ e ∈ es, ¬ hit e) : get s = get start := by
  induction h with
  | nil => rfl
  | @snoc es m e t head ok next ih =>
    have he := hes e (List.mem_append_right _ (List.mem_singleton_self e))
    rw [hframe m e t ok he next]
    exact ih (fun f hf => hes f (List.mem_append_left _ hf))

/-- What holds behind a run and cannot begin to hold holds behind each of its steps. -/
theorem Run.backwards {P : σ → Prop} (h : Run step guard start es s) (hs : P s)
    (hback : ∀ s e t, step s e = some t → P t → P s) :
    Run step (fun s e => guard s e ∧ ∀ t, step s e = some t → P t) start es s := by
  induction h with
  | nil => exact .nil
  | @snoc es m e t head ok next ih =>
    refine (ih (hback m e t next hs)).snoc ⟨ok,?_⟩ next
    intro u hu
    rw [next] at hu
    obtain rfl := Option.some.inj hu
    exact hs

/-- The guard may use an invariant. -/
theorem Run.with_invariant {Inv : σ → Prop} (h : Run step guard start es s) (hstart : Inv start)
    (hstep : ∀ s e t, Inv s → guard s e → step s e = some t → Inv t) :
    Run step (fun s e => Inv s ∧ guard s e) start es s := by
  induction h with
  | nil => exact .nil
  | snoc head ok next ih => exact ih.snoc ⟨head.invariant hstart hstep,ok⟩ next

theorem Run.append {es' : List ε} {u : σ} (h : Run step guard start es s)
    (h' : Run step guard s es' u) : Run step guard start (es ++ es') u := by
  induction h' with
  | nil => rwa [List.append_nil]
  | snoc head ok next ih =>
    rw [← List.append_assoc]
    exact ih.snoc ok next

/-- A run passes through a state between any two parts of its events. -/
theorem Run.split {es' : List ε} {u : σ} (h : Run step guard start (es ++ es') u) :
    ∃ s, Run step guard start es s ∧ Run step guard s es' u := by
  generalize hall : es ++ es' = all at h
  induction h generalizing es' with
  | nil =>
    obtain ⟨rfl,rfl⟩ := List.append_eq_nil_iff.mp hall
    exact ⟨start,.nil,.nil⟩
  | @snoc init s e t head ok next ih =>
    rcases List.eq_nil_or_concat es' with rfl | ⟨init',e',rfl⟩
    · rw [List.append_nil] at hall
      subst hall
      exact ⟨t,head.snoc ok next,.nil⟩
    · rw [List.concat_eq_append, ← List.append_assoc] at hall
      rw [List.concat_eq_append]
      obtain ⟨hinit,he⟩ := List.append_inj' hall rfl
      obtain rfl := List.singleton_inj.mp he
      obtain ⟨m,hm,htail⟩ := ih hinit
      exact ⟨m,hm,htail.snoc ok next⟩

/-- The events of a run determine where it ends. -/
theorem Run.unique {guard' : σ → ε → Prop} (h : Run step guard start es s)
    (h' : Run step guard' start es t) : s = t := by
  induction h generalizing t with
  | nil =>
    generalize hnil : ([] : List ε) = all at h'
    cases h' with
    | nil => rfl
    | snoc head ok next => simp at hnil
  | @snoc init m e u head ok next ih =>
    generalize hall : init ++ [e] = all at h'
    cases h' with
    | nil => simp at hall
    | @snoc init' m' e' _ head' ok' next' =>
      obtain ⟨rfl,he⟩ := List.append_inj' hall rfl
      obtain rfl := List.singleton_inj.mp he
      obtain rfl := ih head'
      rw [next] at next'
      exact Option.some.inj next'

theorem Run.singleton {e : ε} (h : Run step guard start [e] s) :
    guard start e ∧ step start e = some s := by
  generalize hone : [e] = es at h
  cases h with
  | nil => simp at hone
  | snoc head ok next =>
    obtain ⟨rfl,he⟩ := List.append_inj' ((List.nil_append _).trans hone) rfl
    obtain rfl := List.singleton_inj.mp he
    have hnil : Run step guard start [] start := .nil
    obtain rfl := head.unique hnil
    exact ⟨ok,next⟩

/-- The states before and behind one event of a run. -/
theorem Run.at_event {pre post : List ε} {e : ε} {u : σ}
    (h : Run step guard start (pre ++ e::post) u) :
    ∃ s t, Run step guard start pre s ∧ guard s e ∧ step s e = some t ∧ Run step guard t post u := by
  obtain ⟨s,hpre,hrest⟩ := h.split
  rw [← List.singleton_append] at hrest
  obtain ⟨t,hone,hpost⟩ := hrest.split
  obtain ⟨ok,next⟩ := hone.singleton
  exact ⟨s,t,hpre,ok,next,hpost⟩

/-- What no step takes back holds behind a run just if one event of the run has raised it. -/
theorem Run.raised_iff {P : σ → Prop} (h : Run step guard start es s) (hstart : ¬ P start)
    (hkeep : ∀ s e t, P s → step s e = some t → P t) : P s ↔
      ∃ pre e post u v, es = pre ++ e::post ∧ Run step guard start pre u ∧ ¬ P u ∧
        step u e = some v ∧ P v := by
  constructor
  · intro hs
    induction h with
    | nil => exact absurd hs hstart
    | @snoc es m e t head ok next ih =>
      by_cases hm : P m
      · obtain ⟨pre,f,post,u,v,rfl,hpre,hu,hv,hfv⟩ := ih hm
        exact ⟨pre,f,post ++ [e],u,v,by simp,hpre,hu,hv,hfv⟩
      · exact ⟨es,e,[],m,t,rfl,head,hm,next,hs⟩
  · rintro ⟨pre,e,post,u,v,rfl,hpre,-,hv,hfv⟩
    obtain ⟨u',v',hpre',-,hv',hpost⟩ := h.at_event
    obtain rfl := hpre.unique hpre'
    obtain rfl := Option.some.inj (hv.symm.trans hv')
    exact hpost.invariant hfv (fun _ _ _ hs _ hnext => hkeep _ _ _ hs hnext)

/-- Every iteration of a loop meets `P` in the state it starts from. -/
def LoopGuard (f : σ → ι → σ) (P : σ → ι → Prop) (a : σ) (is : List ι) : Prop :=
  ∀ pre i post, is = pre ++ i :: post → P (pre.foldl f a) i

theorem loopGuard_nil (f : σ → ι → σ) (P : σ → ι → Prop) (a : σ) : LoopGuard f P a [] := by
  intro pre i post h
  simp at h

theorem loopGuard_cons {f : σ → ι → σ} {P : σ → ι → Prop} {a : σ} {i : ι} {is : List ι} :
    LoopGuard f P a (i::is) ↔ P a i ∧ LoopGuard f P (f a i) is := by
  constructor
  · intro h
    refine ⟨h [] i is rfl,?_⟩
    intro pre j post hj
    exact h (i::pre) j post (by simp [hj])
  · rintro ⟨hi,hr⟩ pre j post hj
    cases pre with
    | nil =>
      obtain ⟨rfl,-⟩ := List.cons.inj hj
      exact hi
    | cons k pre =>
      obtain ⟨rfl,rfl⟩ := List.cons.inj hj
      exact hr pre j post rfl

theorem loopGuard_snoc {f : σ → ι → σ} {P : σ → ι → Prop} {a : σ} {i : ι} {is : List ι} :
    LoopGuard f P a (is ++ [i]) ↔ LoopGuard f P a is ∧ P (is.foldl f a) i := by
  constructor
  · intro h
    refine ⟨?_,h is i [] rfl⟩
    intro pre j post hj
    exact h pre j (post ++ [i]) (by simp [hj])
  · rintro ⟨hr,hi⟩ pre j post hj
    rcases List.eq_nil_or_concat post with rfl | ⟨post,m,rfl⟩
    · obtain ⟨rfl,hij⟩ := List.append_inj' hj rfl
      obtain rfl := List.singleton_inj.mp hij
      exact hi
    · rw [List.concat_eq_append, ← List.cons_append, ← List.append_assoc] at hj
      obtain ⟨rfl,-⟩ := List.append_inj' hj rfl
      exact hr pre j post rfl

/-- A loop invariant that knows the iterations already done, kept by each guarded
iteration, holds after the loop. -/
theorem foldl_invariant {f : σ → ι → σ} {P : σ → ι → Prop} {Inv : List ι → σ → Prop} {a : σ}
    {is : List ι} (hguard : LoopGuard f P a is) (ha : Inv [] a)
    (hstep : ∀ pre i post, is = pre ++ i :: post → Inv pre (pre.foldl f a) →
      P (pre.foldl f a) i → Inv (pre ++ [i]) (f (pre.foldl f a) i)) :
    Inv is (is.foldl f a) := by
  -- strengthened to every prefix, by induction from its end
  have hall : ∀ pre post, is = pre ++ post → Inv pre (pre.foldl f a) := by
    intro pre
    induction pre using List.reverseRecOn with
    | nil =>
      intro _ _
      exact ha
    | append_singleton pre i ih =>
      intro post hp
      have hp' : is = pre ++ i :: post := by rw [hp, List.append_assoc, List.singleton_append]
      rw [List.foldl_append]
      exact hstep pre i post hp' (ih _ hp') (hguard pre i post hp')
  exact hall is [] (List.append_nil is).symm

end Runs
