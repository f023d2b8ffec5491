import Mathlib

/-! Sequences of operations that write independent cells. A cell shows what the last write
to it left, or its initial value if there was none, as soon as one operation changes at most
the cell it hits. `P` is a property of states that no operation restores: it stands for the
absence of an error, and the laws of the single operations may rely on it. -/
namespace LastWrite

variable {σ β α : Type*} {f : σ → β → σ} (P : σ → Prop) (get : σ → α) (hits : β → Prop)

/-- What held at the end has held before. -/
theorem foldl_back (hback : ∀ s b, P (f s b) → P s) (bs : List β) {s : σ}
    (h : P (bs.foldl f s)) : P s := by
  induction bs generalizing s with
  | nil => exact h
  | cons b bs ih => exact hback s b (ih h)

/-- A cell that nothing hits keeps its value. -/
theorem foldl_frame (hback : ∀ s b, P (f s b) → P s)
    (hframe : ∀ s b, P (f s b) → ¬ hits b → get (f s b) = get s) {bs : List β} {s : σ}
    (h : P (bs.foldl f s)) (hbs : ∀ b ∈ bs, ¬ hits b) : get (bs.foldl f s) = get s := by
  induction bs generalizing s with
  | nil => rfl
  | cons b bs ih =>
    have hb : P (f s b) := foldl_back P hback bs h
    have htail := ih h (fun c hc => hbs c (List.mem_cons_of_mem b hc))
    rw [List.foldl_cons, htail]
    exact hframe s b hb (hbs b List.mem_cons_self)

/-- A cell shows what its last write left, whatever came before it. -/
theorem foldl_last (value : σ → β → α) (hback : ∀ s b, P (f s b) → P s)
    (hframe : ∀ s b, P (f s b) → ¬ hits b → get (f s b) = get s)
    (hwrite : ∀ s b, P (f s b) → hits b → get (f s b) = value s b) {pre post : List β} {b : β}
    {s : σ} (h : P ((pre ++ b::post).foldl f s)) (hb : hits b) (hpost : ∀ c ∈ post, ¬ hits c) :
    get ((pre ++ b::post).foldl f s) = value (pre.foldl f s) b := by
  rw [List.foldl_append, List.foldl_cons] at h ⊢
  rw [foldl_frame P get hits hback hframe h hpost]
  exact hwrite _ b (foldl_back P hback post h) hb

/-- If something hits the cell, there is a last hit. -/
theorem exists_last {bs : List β} (h : ∃ b ∈ bs, hits b) :
    ∃ pre b post, bs = pre ++ b::post ∧ hits b ∧ ∀ c ∈ post, ¬ hits c := by
  induction bs with
  | nil =>
    obtain ⟨b,hb,-⟩ := h
    exact absurd hb List.not_mem_nil
  | cons b bs ih =>
    by_cases hrest : ∃ c ∈ bs, hits c
    · obtain ⟨pre,c,post,rfl,hc,hpost⟩ := ih hrest
      exact ⟨b::pre,c,post,rfl,hc,hpost⟩
    · obtain ⟨c,hc,hhit⟩ := h
      rcases List.mem_cons.mp hc with rfl | hc
      · exact ⟨[],c,bs,rfl,hhit,fun d hd hd' => hrest ⟨d,hd,hd'⟩⟩
      · exact absurd ⟨c,hc,hhit⟩ hrest

/-- A cell is left as it was just when the last write to it writes the value that it has. -/
theorem foldl_same_iff (value : σ → β → α) (hback : ∀ s b, P (f s b) → P s)
    (hframe : ∀ s b, P (f s b) → ¬ hits b → get (f s b) = get s)
    (hwrite : ∀ s b, P (f s b) → hits b → get (f s b) = value s b) {bs : List β} {s : σ}
    (h : P (bs.foldl f s)) : get (bs.foldl f s) = get s ↔ ∀ pre b post, bs = pre ++ b::post →
      hits b → (∀ c ∈ post, ¬ hits c) → value (pre.foldl f s) b = get s := by
  constructor
  · rintro hsame pre b post rfl hb hpost
    exact (foldl_last P get hits value hback hframe hwrite h hb hpost).symm.trans hsame
  · intro hlast
    by_cases hhit : ∃ b ∈ bs, hits b
    · obtain ⟨pre,b,post,rfl,hb,hpost⟩ := exists_last hits hhit
      rw [foldl_last P get hits value hback hframe hwrite h hb hpost]
      exact hlast pre b post rfl hb hpost
    · exact foldl_frame P get hits hback hframe h (fun b hb hb' => hhit ⟨b,hb,hb'⟩)

end LastWrite
