import DolTools.Library.AddressMap

/-! Address maps by their history: the newest operation that covers an address decides what the
address shows. -/
namespace MapLog

/-- An operation of an address space. -/
inductive Op (κ : Type*)
  | map (base len : ℕ) (item : ℕ → κ)
  | unmap (base len : ℕ)

variable {κ : Type*}

def Op.Covers (a : ℕ) : Op κ → Prop
  | map base len _ => base ≤ a ∧ a < base + len
  | unmap base len => base ≤ a ∧ a < base + len

def Op.run (m : AddressMap κ) : Op κ → AddressMap κ
  | map base len item => m.mapRange base len item
  | unmap base len => m.unmapRange base len

/-- The map that a history leads to; the newest operation comes first. -/
def replay : List (Op κ) → AddressMap κ
  | [] => AddressMap.empty
  | op::ops => op.run (replay ops)

variable {op : Op κ} {ops : List (Op κ)} {m : AddressMap κ} {a : ℕ} {x : κ}

lemma run_of_not_covers (h : ¬ op.Covers a) : op.run m a = m a := by
  cases op with
  | map base len item => exact AddressMap.mapRange_of_not_mem m item h
  | unmap base len => exact if_neg h

/-- An address shows what the newest operation that covers it has mapped there. -/
theorem replay_eq_some : replay ops a = some x ↔ ∃ newer base len item older,
    ops = newer ++ .map base len item::older ∧ base ≤ a ∧ a < base + len ∧ item (a - base) = x ∧
      ∀ op ∈ newer, ¬ op.Covers a := by
  induction ops with
  | nil =>
    refine iff_of_false (by simp [replay, AddressMap.empty]) ?_
    rintro ⟨newer,_,_,_,_,h,-⟩
    simp at h
  | cons op ops ih =>
    by_cases hc : op.Covers a
    · cases op with
      | map base len item =>
        rw [replay, Op.run, AddressMap.mapRange_of_mem _ _ hc, Option.some.injEq]
        constructor
        · intro h
          exact ⟨[],base,len,item,ops,rfl,hc.1,hc.2,h,fun _ h => absurd h List.not_mem_nil⟩
        · rintro ⟨newer,base',len',item',older,heq,-,-,hx,hnewer⟩
          cases newer with
          | nil =>
            obtain ⟨hop,-⟩ := List.cons.inj heq
            obtain ⟨rfl,rfl,rfl⟩ := Op.map.inj hop
            exact hx
          | cons op newer =>
            obtain ⟨rfl,-⟩ := List.cons.inj heq
            exact absurd hc (hnewer _ List.mem_cons_self)
      | unmap base len =>
        have hnone : replay (.unmap base len::ops) a = none := if_pos hc
        rw [hnone]
        refine iff_of_false (by simp) ?_
        rintro ⟨newer,base',len',item',older,heq,-,-,-,hnewer⟩
        cases newer with
        | nil =>
          obtain ⟨hop,-⟩ := List.cons.inj heq
          contradiction
        | cons op newer =>
          obtain ⟨rfl,-⟩ := List.cons.inj heq
          exact absurd hc (hnewer _ List.mem_cons_self)
    · rw [replay, run_of_not_covers hc, ih]
      constructor
      · rintro ⟨newer,base,len,item,older,rfl,hlow,hhigh,hx,hnewer⟩
        refine ⟨op::newer,base,len,item,older,rfl,hlow,hhigh,hx,?_⟩
        rw [List.forall_mem_cons]
        exact ⟨hc,hnewer⟩
      · rintro ⟨newer,base,len,item,older,heq,hlow,hhigh,hx,hnewer⟩
        cases newer with
        | nil =>
          obtain ⟨rfl,-⟩ := List.cons.inj heq
          exact absurd ⟨hlow,hhigh⟩ hc
        | cons op' newer =>
          obtain ⟨rfl,rfl⟩ := List.cons.inj heq
          exact ⟨newer,base,len,item,older,rfl,hlow,hhigh,hx,
            fun op hop => hnewer op (List.mem_cons_of_mem _ hop)⟩

end MapLog
