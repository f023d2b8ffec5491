import DolTools.Library.CText

/-! Output by `printf`, with formats that hold numbers in base 16. A text behind every number that
does not go on with a digit makes the output determine the numbers, and where each of them stands
behind a `0x` they are found in the output. -/
namespace CFormat
open CText

/-- A part of a format: text that stands for itself, or a number with the width of `%0*X`. -/
inductive Directive
  | text (t : List Char)
  | hex (upper : Bool) (width : ℕ)
  deriving DecidableEq, Repr

def Directive.width : Directive → ℕ
  | .text _ => 0
  | .hex _ width => width

/-- `%d` of a number that is not negative -/
def decimal (n : ℕ) : List Char := Nat.toDigits 10 n

/-- `printf`: the numbers go to the directives in their order. -/
def print : List Directive → List ℕ → List Char
  | [], _ => []
  | .text t::fmt, ns => t ++ print fmt ns
  | .hex upper width::fmt, n::ns => printHex upper width n ++ print fmt ns
  | .hex _ _::fmt, [] => print fmt []

/-- How many numbers a format takes. -/
def numbers : List Directive → ℕ
  | [] => 0
  | .text _::fmt => numbers fmt
  | .hex _ _::fmt => numbers fmt + 1

def startsPlain : List Directive → Bool
  | .text (c::_)::_ => !isDigit 16 c
  | _ => false

/-- Behind every number stands a text, and it starts with no digit. -/
def separated : List Directive → Bool
  | [] => true
  | .text _::fmt => separated fmt
  | .hex _ _::fmt => startsPlain fmt && separated fmt

section

variable {fmt : List Directive} {ns ns' : List ℕ} {rest rest' : List Char}

lemma startsPlain_head (h : startsPlain fmt = true) :
    ∀ c ∈ (print fmt ns ++ rest).head?, isDigit 16 c = false := by
  unfold startsPlain at h
  split at h
  · rename_i d t fmt
    intro c hc
    rw [print, List.cons_append, List.cons_append, List.head?_cons] at hc
    obtain rfl := Option.some.inj hc
    simpa using h
  · contradiction

lemma printHex_inj {upper : Bool} {width n n' : ℕ}
    (h : printHex upper width n = printHex upper width n') : n = n' := by
  have heq := congrArg (ofDigits 16) h
  rwa [ofDigits_printHex, ofDigits_printHex] at heq

/-- A run of digits ends where no digit follows. -/
lemma digits_append_inj {ds ds' : List Char} (hds : ∀ c ∈ ds, isDigit 16 c = true)
    (hds' : ∀ c ∈ ds', isDigit 16 c = true) (hrest : ∀ c ∈ rest.head?, isDigit 16 c = false)
    (hrest' : ∀ c ∈ rest'.head?, isDigit 16 c = false) (h : ds ++ rest = ds' ++ rest') :
    ds = ds' ∧ rest = rest' := by
  obtain ⟨htake,hdrop⟩ := takeWhile_digits hds hrest
  obtain ⟨htake',hdrop'⟩ := takeWhile_digits hds' hrest'
  rw [h] at htake hdrop
  exact ⟨htake.symm.trans htake',hdrop.symm.trans hdrop'⟩

/-- One call of `printf` can be read back, whatever is printed behind it. -/
theorem print_append_inj (hsep : separated fmt = true) (hns : ns.length = numbers fmt)
    (hns' : ns'.length = numbers fmt) (h : print fmt ns ++ rest = print fmt ns' ++ rest') :
    ns = ns' ∧ rest = rest' := by
  induction fmt generalizing ns ns' with
  | nil =>
    rw [List.length_eq_zero_iff.mp hns, List.length_eq_zero_iff.mp hns']
    exact ⟨rfl,h⟩
  | cons d fmt ih =>
    cases d with
    | text t =>
      rw [print, print, List.append_assoc, List.append_assoc] at h
      exact ih hsep hns hns' (List.append_cancel_left h)
    | hex upper width =>
      obtain ⟨hplain,hsep⟩ := Bool.and_eq_true_iff.mp hsep
      cases ns with
      | nil => contradiction
      | cons n ns =>
        cases ns' with
        | nil => contradiction
        | cons n' ns' =>
          rw [print, print, List.append_assoc, List.append_assoc] at h
          obtain ⟨hhex,htail⟩ := digits_append_inj (fun c hc => isDigit_printHex hc)
            (fun c hc => isDigit_printHex hc) (startsPlain_head hplain)
            (startsPlain_head hplain) h
          obtain ⟨rfl,hrest⟩ := ih hsep (Nat.succ.inj hns) (Nat.succ.inj hns') htail
          rw [printHex_inj hhex]
          exact ⟨rfl,hrest⟩

end

/-! Numbers in base 10, one digit at least. -/

lemma digit_of_mem_decimal {n : ℕ} {c : Char} (h : c ∈ decimal n) : '0' ≤ c ∧ c ≤ '9' := by
  have hdigit := Nat.isDigit_of_mem_toDigits (by decide) le_rfl h
  simpa [Char.isDigit, Char.le_def] using hdigit

lemma isDigit_decimal {n : ℕ} {c : Char} (h : c ∈ decimal n) : isDigit 10 c = true :=
  isDigit_ten.mpr (digit_of_mem_decimal h)

theorem ofDigits_decimal (n : ℕ) : ofDigits 10 (decimal n) = n := by
  have hfold : ∀ (ds : List Char) (k : ℕ), (∀ c ∈ ds, '0' ≤ c ∧ c ≤ '9') →
      ds.foldl (fun n c => 10*n + (digitVal c).getD 0) k = Nat.ofDigitChars 10 ds k := by
    intro ds
    induction ds with
    | nil => exact fun _ _ => rfl
    | cons c ds ih =>
      intro k hds
      rw [List.forall_mem_cons] at hds
      rw [List.foldl_cons, ih _ hds.2, digitVal, if_pos hds.1]
      rfl
  rw [ofDigits, hfold _ _ (fun c hc => digit_of_mem_decimal hc)]
  exact Nat.ofDigitChars_ten_toDigits

/-- The numbers in a text that are marked by `0x`, each from its mark to its last digit. -/
def hexNumbers : List Char → List (List Char)
  | [] => []
  | c::t =>
    if c = '0' ∧ t.head? = some 'x' then
      ("0x".toList ++ t.tail.takeWhile (isDigit 16))::hexNumbers t
    else hexNumbers t

/-- The numbers that a format prints, with their marks. -/
def printed : List Directive → List ℕ → List (List Char)
  | [], _ => []
  | .text _::fmt, ns => printed fmt ns
  | .hex upper width::fmt, n::ns => ("0x".toList ++ printHex upper width n)::printed fmt ns
  | .hex _ _::fmt, [] => printed fmt []

/-- A text that holds no mark and cannot end one. -/
def unmarked (t : List Char) : Bool := t.head? != some 'x' && hexNumbers t == []

/-- Every number stands behind a mark, and there are no other marks. -/
def marked : List Directive → Bool
  | [] => true
  | .text t::.hex _ _::fmt =>
    t == t.take (t.length - 2) ++ "0x".toList && unmarked (t.take (t.length - 2)) && marked fmt
  | .text t::fmt => t != [] && unmarked t && marked fmt
  | .hex _ _::_ => false

section

variable {c : Char} {a b t ds rest : List Char} {fmt : List Directive} {ns : List ℕ}

lemma hexNumbers_append (ha : hexNumbers a = []) (hb : b.head? ≠ some 'x') :
    hexNumbers (a ++ b) = hexNumbers b := by
  induction a with
  | nil => rfl
  | cons c a ih =>
    have hc : ¬ (c = '0' ∧ a.head? = some 'x') := by
      intro h
      rw [hexNumbers, if_pos h] at ha
      contradiction
    rw [hexNumbers, if_neg hc] at ha
    rw [List.cons_append, hexNumbers, if_neg, ih ha]
    rintro ⟨rfl,hx⟩
    cases a with
    | nil => exact hb hx
    | cons d a => exact hc ⟨rfl,hx⟩

lemma hexNumbers_digits (hds : ∀ c ∈ ds, isDigit 16 c = true) : hexNumbers ds = [] := by
  induction ds with
  | nil => rfl
  | cons c ds ih =>
    rw [List.forall_mem_cons] at hds
    rw [hexNumbers, if_neg, ih hds.2]
    rintro ⟨-,hx⟩
    exact absurd (hds.2 'x' (List.mem_of_head? hx)) (by decide)

lemma hexNumbers_number (hds : ∀ c ∈ ds, isDigit 16 c = true)
    (hrest : ∀ c ∈ rest.head?, isDigit 16 c = false) (hx : rest.head? ≠ some 'x') :
    hexNumbers ("0x".toList ++ (ds ++ rest)) = ("0x".toList ++ ds)::hexNumbers rest := by
  change hexNumbers ('0' :: 'x' :: (ds ++ rest)) = _
  rw [hexNumbers, if_pos ⟨rfl,rfl⟩, List.tail_cons, (takeWhile_digits hds hrest).1, hexNumbers,
    if_neg (fun h => absurd h.1 (by decide)), hexNumbers_append (hexNumbers_digits hds) hx]

lemma unmarked_iff : unmarked t = true ↔ t.head? ≠ some 'x' ∧ hexNumbers t = [] := by
  simp [unmarked]

/-- What is printed does not go on with the end of a mark. -/
lemma marked_head (h : marked fmt = true) (hrest : rest.head? ≠ some 'x') :
    (print fmt ns ++ rest).head? ≠ some 'x' := by
  unfold marked at h
  split at h
  · exact hrest
  · rename_i t upper width fmt
    simp only [Bool.and_eq_true, beq_iff_eq, unmarked_iff] at h
    obtain ⟨⟨ht,hhead,-⟩,-⟩ := h
    rw [print, ht]
    cases hpre : t.take (t.length - 2) with
    | nil => simp
    | cons c pre => simpa [hpre] using hhead
  · rename_i t fmt _
    simp only [Bool.and_eq_true, bne_iff_ne, unmarked_iff] at h
    obtain ⟨⟨hne,hhead,-⟩,-⟩ := h
    rw [print]
    cases t with
    | nil => contradiction
    | cons c t => exact hhead
  · contradiction

/-- The numbers of one call of `printf` are found, in their order. -/
theorem hexNumbers_print (hsep : separated fmt = true) (hmark : marked fmt = true)
    (hns : ns.length = numbers fmt) (hrest : rest.head? ≠ some 'x') :
    hexNumbers (print fmt ns ++ rest) = printed fmt ns ++ hexNumbers rest := by
  induction fmt using marked.induct generalizing ns with
  | case1 => rfl
  | case2 t upper width fmt ih =>
    rw [marked] at hmark
    simp only [Bool.and_eq_true, beq_iff_eq, unmarked_iff] at hmark
    obtain ⟨⟨ht,-,hpre⟩,hmark⟩ := hmark
    obtain ⟨hplain,hsep⟩ := Bool.and_eq_true_iff.mp hsep
    cases ns with
    | nil => contradiction
    | cons n ns =>
      rw [print, print, printed, printed, ht, List.append_assoc, List.append_assoc,
        hexNumbers_append hpre (by simp), List.append_assoc, hexNumbers_number
          (fun c hc => isDigit_printHex hc) (startsPlain_head hplain) (marked_head hmark hrest),
        ih hsep hmark (Nat.succ.inj hns), List.cons_append]
  | case3 t fmt hother ih =>
    rw [marked] at hmark
    · simp only [Bool.and_eq_true, bne_iff_ne, unmarked_iff] at hmark
      obtain ⟨⟨-,-,ht⟩,hmark⟩ := hmark
      rw [print, printed, List.append_assoc, hexNumbers_append ht (marked_head hmark hrest),
        ih hsep hmark hns]
    · exact hother
  | case4 upper width fmt => contradiction

end

section

variable {φ : Type*} {layout : List (List Directive × List φ)} {v v' : φ → ℕ}

/-- Calls of `printf` in a row, each with the fields whose values it prints. -/
def printFields (layout : List (List Directive × List φ)) (v : φ → ℕ) : List Char :=
  layout.flatMap (fun l => print l.1 (l.2.map v))

/-- The format takes as many numbers as there are fields, and keeps them apart. -/
def Fits (l : List Directive × List φ) : Prop :=
  separated l.1 = true ∧ l.2.length = numbers l.1

instance (l : List Directive × List φ) : Decidable (Fits l) :=
  inferInstanceAs (Decidable (_ ∧ _))

/-- The output shows the values of the fields, no less and no more. -/
theorem printFields_eq_iff (hfits : ∀ l ∈ layout, Fits l) :
    printFields layout v = printFields layout v' ↔ ∀ l ∈ layout, ∀ f ∈ l.2, v f = v' f := by
  induction layout with
  | nil => exact iff_of_true rfl (fun l hl => absurd hl List.not_mem_nil)
  | cons l layout ih =>
    obtain ⟨hsep,hlen⟩ := hfits l List.mem_cons_self
    rw [List.forall_mem_cons, ← ih (fun l hl => hfits l (List.mem_cons_of_mem _ hl)),
      printFields, printFields, List.flatMap_cons, List.flatMap_cons]
    constructor
    · intro h
      obtain ⟨hargs,hrest⟩ := print_append_inj hsep ((List.length_map _).trans hlen)
        ((List.length_map _).trans hlen) h
      exact ⟨List.map_inj_left.mp hargs,hrest⟩
    · rintro ⟨hargs,hrest⟩
      rw [List.map_inj_left.mpr hargs]
      exact congrArg _ hrest

lemma printFields_head (hmark : ∀ l ∈ layout, marked l.1 = true) :
    (printFields layout v).head? ≠ some 'x' := by
  induction layout with
  | nil => exact (Option.some_ne_none 'x').symm
  | cons l layout ih =>
    rw [List.forall_mem_cons] at hmark
    rw [printFields, List.flatMap_cons]
    exact marked_head hmark.1 (ih hmark.2)

/-- The numbers of all calls are found, call by call. -/
theorem hexNumbers_printFields (hfits : ∀ l ∈ layout, Fits l)
    (hmark : ∀ l ∈ layout, marked l.1 = true) : hexNumbers (printFields layout v) =
      layout.flatMap (fun l => printed l.1 (l.2.map v)) := by
  induction layout with
  | nil => rfl
  | cons l layout ih =>
    rw [List.forall_mem_cons] at hfits hmark
    rw [List.flatMap_cons, ← ih hfits.2 hmark.2, printFields, List.flatMap_cons]
    exact hexNumbers_print hfits.1.1 hmark.1 ((List.length_map _).trans hfits.1.2)
      (printFields_head hmark.2)

/-- A field next to its number. -/
lemma mem_zip_printed {fs : List φ} {f : φ} {text : List Char} {fmt : List Directive}
    (h : (f,text) ∈ fs.zip (printed fmt (fs.map v))) : ∃ upper width,
      .hex upper width ∈ fmt ∧ text = "0x".toList ++ printHex upper width (v f) := by
  induction fmt generalizing fs with
  | nil => simp [printed] at h
  | cons d fmt ih =>
    cases d with
    | text t =>
      obtain ⟨upper,width,hmem,htext⟩ := ih h
      exact ⟨upper,width,List.mem_cons_of_mem _ hmem,htext⟩
    | hex upper width =>
      cases fs with
      | nil => simp at h
      | cons g fs =>
        rw [List.map_cons, printed, List.zip_cons_cons] at h
        rcases List.mem_cons.mp h with heq | h
        · obtain ⟨rfl,rfl⟩ := Prod.mk.inj heq
          exact ⟨upper,width,List.mem_cons_self,rfl⟩
        · obtain ⟨upper',width',hmem,htext⟩ := ih h
          exact ⟨upper',width',List.mem_cons_of_mem _ hmem,htext⟩

lemma printed_length {fmt : List Directive} {ns : List ℕ} (h : ns.length = numbers fmt) :
    (printed fmt ns).length = numbers fmt := by
  induction fmt generalizing ns with
  | nil => rfl
  | cons d fmt ih =>
    cases d with
    | text t => exact ih h
    | hex upper width =>
      cases ns with
      | nil => contradiction
      | cons n ns => exact congrArg (· + 1) (ih (Nat.succ.inj h))

/-- The fields of an output in their order, each next to the number that is found for it. -/
theorem zip_hexNumbers (hfits : ∀ l ∈ layout, Fits l) (hmark : ∀ l ∈ layout, marked l.1 = true) :
    (layout.flatMap (·.2)).zip (hexNumbers (printFields layout v)) =
      layout.flatMap (fun l => l.2.zip (printed l.1 (l.2.map v))) := by
  rw [hexNumbers_printFields hfits hmark]
  clear hmark
  induction layout with
  | nil => rfl
  | cons l layout ih =>
    rw [List.forall_mem_cons] at hfits
    rw [List.flatMap_cons, List.flatMap_cons, List.flatMap_cons, ← ih hfits.2, List.zip_append]
    rw [printed_length ((List.length_map _).trans hfits.1.2)]
    exact hfits.1.2

end

end CFormat
