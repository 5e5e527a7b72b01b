/-
Texts up to blanks: every run of blanks becomes one blank, and both ends are trimmed.

`scan` does this in one pass, as a loop that owes a blank until the next character asks for it. A text that has been through it
comes out of it unchanged.

Results:
  · scan_eq     : the pass is the collapse followed by the trim
  · scan_scan   : the pass is idempotent
  · join_inj    : a text joined with a delimiter determines its fields
-/
import Mathlib.Data.List.DropRight
import Mathlib.Tactic

namespace ViperFx.Core.Words

variable {α : Type*} (isBlank : α → Bool) (blank : α)

/-! ## The two operations -/

/-- what becomes of a text whose last character so far was a blank or not -/
def collapseFrom : Bool → List α → List α
  | _, [] => []
  | afterBlank, x :: rest =>
    if isBlank x then
      if afterBlank then collapseFrom true rest else blank :: collapseFrom true rest
    else x :: collapseFrom false rest

/-- every run of blanks becomes one -/
def collapse (text : List α) : List α := collapseFrom isBlank blank false text

/-- the text without the blanks at its ends -/
def trim (text : List α) : List α := (text.dropWhile isBlank).rdropWhile isBlank

/-! ## One pass -/

/-- the output so far, and whether a blank is owed before the next character -/
def scanStep (st : List α × Bool) (x : α) : List α × Bool :=
  if isBlank x then (st.1, !st.1.isEmpty)
  else if st.2 then (st.1 ++ [blank] ++ [x], false)
  else (st.1 ++ [x], false)

def scan (text : List α) : List α × Bool := text.foldl (scanStep isBlank blank) ([], false)

theorem scan_append (text : List α) (x : α) :
    scan isBlank blank (text ++ [x]) = scanStep isBlank blank (scan isBlank blank text) x := by
  simp [scan]

/-- the last character of a text is a blank, or else what was there before the text -/
def endsBlank (before : Bool) (text : List α) : Bool := (text.getLast?.map isBlank).getD before

theorem collapseFrom_append (before : Bool) (text : List α) (x : α) :
    collapseFrom isBlank blank before (text ++ [x]) = collapseFrom isBlank blank before text ++
      (if isBlank x then if endsBlank isBlank before text then [] else [blank] else [x]) := by
  induction text generalizing before with
  | nil =>
    cases hx : isBlank x <;> cases before <;> simp [collapseFrom, endsBlank, hx]
  | cons y rest ih =>
    have hends (b : Bool) (hb : isBlank y = b) : endsBlank isBlank before (y :: rest) = endsBlank isBlank b rest := by
      cases rest with
      | nil => simp [endsBlank, hb]
      | cons z rest => simp [endsBlank, List.getLast?_cons]
    cases hy : isBlank y with
    | true =>
      rw [List.cons_append, collapseFrom, collapseFrom, if_pos hy, if_pos hy, ih, hends true hy]
      cases before <;> rfl
    | false =>
      have hnot : ¬isBlank y = true := by simp [hy]
      rw [List.cons_append, collapseFrom, collapseFrom, if_neg hnot, if_neg hnot, ih, hends false hy]
      rfl

/-- what the loop knows: its output has no blank at its ends, and with the blank it owes it is the text so far, collapsed, without
the blanks at the front -/
structure Scanned (text : List α) (st : List α × Bool) : Prop where
  collapsed : (collapse isBlank blank text).dropWhile isBlank = st.1 ++ (if st.2 then [blank] else [])
  owed : st.2 = true → st.1 ≠ []
  tight : ∀ x ∈ st.1.getLast?, isBlank x = false
  ends : st.1 ≠ [] → endsBlank isBlank false text = st.2

variable {isBlank} {blank}

theorem Scanned.step (hblank : isBlank blank = true) {text : List α} {st : List α × Bool} (h : Scanned isBlank blank text st)
    (x : α) : Scanned isBlank blank (text ++ [x]) (scanStep isBlank blank st x) := by
  have happend := collapseFrom_append isBlank blank false text x
  have hends : endsBlank isBlank false (text ++ [x]) = isBlank x := by simp [endsBlank]
  obtain ⟨out, owed⟩ := st
  have hcollapsed : (collapseFrom isBlank blank false text).dropWhile isBlank = out ++ (if owed then [blank] else []) :=
    h.collapsed
  cases hx : isBlank x with
  | true =>
    -- a blank is owed from now on, if anything has been put out
    rw [scanStep, if_pos hx]
    rw [if_pos hx] at happend
    refine ⟨?_, ?_, h.tight, ?_⟩
    · unfold collapse
      rw [happend, List.dropWhile_append, hcollapsed]
      by_cases hout : out = []
      · have howed : owed = false := by
          cases owed with
          | false => rfl
          | true => exact absurd hout (h.owed rfl)
        subst hout howed
        cases endsBlank isBlank false text <;> simp [hblank]
      · have hend : endsBlank isBlank false text = owed := h.ends hout
        rw [hend]
        cases owed <;> simp [hout]
    · intro howed hout
      simp [show out = [] from hout] at howed
    · intro hout
      rw [hends, hx]
      have hout : out ≠ [] := hout
      simp [hout]
  | false =>
    have hnot : ¬isBlank x = true := by simp [hx]
    rw [scanStep, if_neg hnot]
    rw [if_neg hnot] at happend
    have hdrop : (collapse isBlank blank (text ++ [x])).dropWhile isBlank =
        out ++ (if owed then [blank] else []) ++ [x] := by
      unfold collapse
      rw [happend, List.dropWhile_append, hcollapsed]
      cases owed with
      | true => simp
      | false => cases out <;> simp [hx]
    cases owed with
    | true => exact ⟨by simpa using hdrop, by simp, by simp [hx], fun _ => by simp [hends, hx]⟩
    | false => exact ⟨by simpa using hdrop, by simp, by simp [hx], fun _ => by simp [hends, hx]⟩

theorem scanned (hblank : isBlank blank = true) (text : List α) : Scanned isBlank blank text (scan isBlank blank text) := by
  induction text using List.reverseRecOn with
  | nil => exact ⟨rfl, nofun, by simp [scan], fun h => absurd rfl h⟩
  | append_singleton text x ih =>
    rw [scan_append]
    exact ih.step hblank x

/-- **One pass is enough.** The output of the loop is the collapsed text, trimmed. -/
theorem scan_eq (hblank : isBlank blank = true) (text : List α) :
    (scan isBlank blank text).1 = trim isBlank (collapse isBlank blank text) := by
  have h := scanned hblank text
  have htight : (scan isBlank blank text).1.rdropWhile isBlank = (scan isBlank blank text).1 := by
    rw [List.rdropWhile_eq_self_iff]
    intro hne hlast
    have := h.tight _ (List.getLast?_eq_getLast_of_ne_nil hne)
    simp [this] at hlast
  unfold trim
  rw [h.collapsed]
  cases (scan isBlank blank text).2 with
  | true =>
    rw [if_pos rfl, List.rdropWhile_concat_pos _ _ _ hblank]
    exact htight.symm
  | false =>
    rw [if_neg Bool.false_ne_true, List.append_nil]
    exact htight.symm

/-- the output of the loop passes through it as it is -/
theorem scan_scan (hblank : isBlank blank = true) (text : List α) :
    scan isBlank blank (scan isBlank blank text).1 = ((scan isBlank blank text).1, false) := by
  induction text using List.reverseRecOn with
  | nil => rfl
  | append_singleton text x ih =>
    have howed := (scanned hblank text).owed
    rw [scan_append]
    generalize scan isBlank blank text = st at ih howed
    obtain ⟨out, owed⟩ := st
    have ih : scan isBlank blank out = (out, false) := ih
    cases hx : isBlank x with
    | true => simpa [scanStep, hx] using ih
    | false =>
      cases owed with
      | true =>
        have hout : out ≠ [] := howed rfl
        have hstep : scanStep isBlank blank (out, true) x = (out ++ [blank] ++ [x], false) := by simp [scanStep, hx]
        rw [hstep, scan_append, scan_append, ih]
        simp [scanStep, hx, hblank, hout]
      | false =>
        have hstep : scanStep isBlank blank (out, false) x = (out ++ [x], false) := by simp [scanStep, hx]
        rw [hstep, scan_append, ih]
        exact hstep

/-- the output is made of the characters of the text and blanks -/
theorem mem_scan {text : List α} {y : α} (h : y ∈ (scan isBlank blank text).1) : y = blank ∨ y ∈ text := by
  induction text using List.reverseRecOn with
  | nil => simp [scan] at h
  | append_singleton text x ih =>
    rw [scan_append] at h
    unfold scanStep at h
    split_ifs at h
    · rcases ih h with h | h
      · exact .inl h
      · exact .inr (List.mem_append_left _ h)
    · simp only [List.mem_append, List.mem_singleton] at h ⊢
      tauto
    · simp only [List.mem_append, List.mem_singleton] at h ⊢
      tauto

/-! ## Delimited fields -/

/-- **The delimiter tells the fields apart** that do not contain it. -/
theorem join_inj [DecidableEq α] {delimiter : α} {fields fields' : List (List α)} (hne : fields ≠ []) (hne' : fields' ≠ [])
    (h : ∀ field ∈ fields, delimiter ∉ field) (h' : ∀ field ∈ fields', delimiter ∉ field) :
    [delimiter].intercalate fields = [delimiter].intercalate fields' ↔ fields = fields' := by
  constructor
  · intro heq
    have hsplit := congrArg (List.splitOn delimiter) heq
    rwa [List.splitOn_intercalate delimiter h hne, List.splitOn_intercalate delimiter h' hne'] at hsplit
  · intro heq
    rw [heq]

end ViperFx.Core.Words
