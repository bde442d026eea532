import Mathlib.Data.List.DropRight
import SketchBuild.Proofs.Text

/-!
# Reading line by line

Most of what is read in the output of a tool is read line by line: `gather f cs` is what `f` finds
in the lines of `cs`. If `f` finds nothing in an empty line, it makes no difference how lines are
ended, and texts that are joined by a line feed are read one after the other:

    gather_append_newline : gather f (cs ++ '\n' :: ds) = gather f cs ++ gather f ds
    gather_windowsBreaks : gather f (windowsBreaks cs) = gather f cs

If `f` does not look at the blanks that end a line either, those that end the text do not matter:

    gather_trimRight : gather f (trimRight cs) = gather f cs
-/

namespace SketchBuild.Text

/-! ## What is appended to a text -/

theorem lines_eq_nil_iff {cs : List Char} : lines cs = [] ↔ cs = [] := by
  fun_induction lines cs with
  | case1 => simp
  | case2 => simp
  | case3 => simp
  | case4 c cs => cases lines cs <;> simp [consField]

/-- A line break ends an empty line, unless it is the first half of a longer break. -/
theorem lines_cons_of_isLineBreak {c : Char} {cs : List Char} (hc : isLineBreak c = true)
    (hpair : c = '\r' → cs.head? ≠ some '\n') : lines (c :: cs) = [] :: lines cs := by
  rw [lines, if_pos hc]
  rintro ds rfl rfl
  exact hpair rfl rfl

/-- A line break ends the line that is open, or it adds an empty line, or it completes the break
before it. -/
theorem lines_append_break_cases {c : Char} (hc : isLineBreak c = true) (cs ds : List Char)
    (hpair : c = '\r' → ds.head? ≠ some '\n') :
    lines (cs ++ c :: ds) = lines cs ++ lines ds ∨
      lines (cs ++ c :: ds) = lines cs ++ [] :: lines ds := by
  fun_induction lines cs with
  | case1 => exact .inr (lines_cons_of_isLineBreak hc hpair)
  | case2 cs ih =>
      rw [List.cons_append, List.cons_append, lines, List.cons_append, List.cons_append]
      exact ih.imp (congrArg _) (congrArg _)
  | case3 b cs hcrlf hb ih =>
      by_cases hfuse : b = '\r' ∧ cs = [] ∧ c = '\n'
      · obtain ⟨rfl, rfl, rfl⟩ := hfuse
        exact .inl rfl
      · have hlines : lines (b :: (cs ++ c :: ds)) = [] :: lines (cs ++ c :: ds) := by
          refine lines_cons_of_isLineBreak hb fun hr hhead => ?_
          cases cs with
          | nil => exact hfuse ⟨hr, rfl, by simpa using hhead⟩
          | cons a cs => exact hcrlf cs hr (by simpa using hhead)
        rw [List.cons_append, hlines, List.cons_append, List.cons_append]
        exact ih.imp (congrArg _) (congrArg _)
  | case4 b cs hcrlf hb ih =>
      have hb : isLineBreak b = false := by simpa using hb
      rw [List.cons_append, lines_cons hb]
      cases hcs : lines cs with
      | nil =>
          obtain rfl := lines_eq_nil_iff.mp hcs
          rw [List.nil_append, lines_cons_of_isLineBreak hc hpair]
          exact .inl rfl
      | cons l ls =>
          rw [hcs] at ih
          exact ih.imp (congrArg (consField b)) (congrArg (consField b))

/-- `ls'` is `ls` with `c` as a line of its own or at the end of the last line. -/
def AddsLast (c : Char) (ls ls' : List (List Char)) : Prop :=
  ls' = ls ++ [[c]] ∨ ∃ ks l, ls = ks ++ [l] ∧ ls' = ks ++ [l ++ [c]]

theorem AddsLast.cons {c : Char} {ls ls' : List (List Char)} (h : AddsLast c ls ls')
    (k : List Char) : AddsLast c (k :: ls) (k :: ls') := by
  rcases h with rfl | ⟨ks, l, rfl, rfl⟩
  · exact .inl rfl
  · exact .inr ⟨k :: ks, l, rfl, rfl⟩

/-- A last character is added whether or not the first line grows at its start. -/
theorem AddsLast.consField {c : Char} {l : List Char} {ls ls' : List (List Char)}
    (h : AddsLast c (l :: ls) ls') (b : Char) :
    AddsLast c (Text.consField b (l :: ls)) (Text.consField b ls') := by
  rcases h with rfl | ⟨ks, m, hks, rfl⟩
  · exact .inl rfl
  · cases ks with
    | nil =>
        cases hks
        exact .inr ⟨[], b :: l, rfl, rfl⟩
    | cons k ks =>
        cases hks
        exact .inr ⟨(b :: l) :: ks, m, rfl, rfl⟩

theorem addsLast_lines_concat {c : Char} (hc : isLineBreak c = false) (cs : List Char) :
    AddsLast c (lines cs) (lines (cs ++ [c])) := by
  fun_induction lines cs with
  | case1 => exact .inl (lines_cons hc [])
  | case2 cs ih =>
      rw [List.cons_append, List.cons_append, lines]
      exact ih.cons []
  | case3 b cs hcrlf hb ih =>
      have hlines : lines (b :: (cs ++ [c])) = [] :: lines (cs ++ [c]) := by
        refine lines_cons_of_isLineBreak hb fun hr hhead => ?_
        cases cs with
        | nil =>
            obtain rfl : c = '\n' := by simpa using hhead
            cases hc
        | cons a cs => exact hcrlf cs hr (by simpa using hhead)
      rw [List.cons_append, hlines]
      exact ih.cons []
  | case4 b cs hcrlf hb ih =>
      have hb : isLineBreak b = false := by simpa using hb
      rw [List.cons_append, lines_cons hb]
      cases hcs : lines cs with
      | nil =>
          -- the two characters are one line
          obtain rfl := lines_eq_nil_iff.mp hcs
          rw [List.nil_append, lines_cons hc]
          exact .inr ⟨[], [b], rfl, rfl⟩
      | cons l ls =>
          rw [hcs] at ih
          exact ih.consField b

/-! ## Parts of a text -/

theorem prefix_of_lines {l cs : List Char} {ls : List (List Char)} (h : lines cs = l :: ls) :
    l <+: cs := by
  fun_induction lines cs generalizing l ls with
  | case1 => cases h
  | case2 cs ih =>
      cases h
      exact List.nil_prefix
  | case3 c cs hcrlf hc ih =>
      cases h
      exact List.nil_prefix
  | case4 c cs hcrlf hc ih =>
      cases hcs : lines cs with
      | nil =>
          rw [hcs] at h
          cases h
          exact List.cons_prefix_cons.mpr ⟨rfl, List.nil_prefix⟩
      | cons f fs =>
          rw [hcs] at h
          cases h
          exact List.cons_prefix_cons.mpr ⟨rfl, ih hcs⟩

/-- A line is a part of the text. -/
theorem infix_of_mem_lines {l cs : List Char} (h : l ∈ lines cs) : l <:+: cs := by
  fun_induction lines cs generalizing l with
  | case1 => cases h
  | case2 cs ih =>
      rcases List.mem_cons.mp h with rfl | h
      · exact List.nil_infix
      · exact List.infix_cons (List.infix_cons (ih h))
  | case3 c cs hcrlf hc ih =>
      rcases List.mem_cons.mp h with rfl | h
      · exact List.nil_infix
      · exact List.infix_cons (ih h)
  | case4 c cs hcrlf hc ih =>
      cases hcs : lines cs with
      | nil =>
          rw [hcs] at h
          obtain rfl := List.mem_singleton.mp h
          exact (List.cons_prefix_cons.mpr ⟨rfl, List.nil_prefix⟩).isInfix
      | cons f fs =>
          rw [hcs] at h
          rcases List.mem_cons.mp h with rfl | h
          · exact (List.cons_prefix_cons.mpr ⟨rfl, prefix_of_lines hcs⟩).isInfix
          · exact List.infix_cons (ih (hcs ▸ List.mem_cons_of_mem f h))

/-! ## Trimming -/

theorem trimRight_concat (cs : List Char) (c : Char) :
    trimRight (cs ++ [c]) = if isBlank c then trimRight cs else cs ++ [c] :=
  List.rdropWhile_concat isBlank cs c

theorem trim_concat_of_blank {c : Char} (h : isBlank c = true) (cs : List Char) :
    trim (cs ++ [c]) = trim cs := by
  rw [trim, trim, trimLeftBy, trimLeftBy, List.dropWhile_append]
  split
  · next hnil =>
      rw [List.isEmpty_iff.mp hnil, List.dropWhile_cons_of_pos h]
      rfl
  · rw [trimRight_concat, if_pos h]

/-- Only blanks are trimmed away. -/
theorem trim_eq_nil_iff {cs : List Char} : trim cs = [] ↔ ∀ c ∈ cs, isBlank c = true := by
  constructor
  · intro h
    have hdrop : ∀ c ∈ cs.dropWhile isBlank, isBlank c = true := List.rdropWhile_eq_nil_iff.mp h
    intro c hc
    rw [← List.takeWhile_append_dropWhile (p := isBlank) (l := cs)] at hc
    rcases List.mem_append.mp hc with hc | hc
    · exact List.mem_takeWhile_imp hc
    · exact hdrop c hc
  · intro h
    rw [trim, trimLeftBy, List.dropWhile_eq_nil_iff.mpr h]
    rfl

/-- A text in which blanks are replaced by blanks is trimmed as before. -/
theorem dropWhile_flatMap {α : Type} {p : α → Bool} {g : α → List α}
    (hpos : ∀ a, p a = true → ∀ b ∈ g a, p b = true) (hneg : ∀ a, p a = false → g a = [a])
    (as : List α) : (as.flatMap g).dropWhile p = (as.dropWhile p).flatMap g := by
  induction as with
  | nil => rfl
  | cons a as ih =>
      rw [List.flatMap_cons]
      cases ha : p a with
      | true => rw [List.dropWhile_append_of_pos (hpos a ha), ih, List.dropWhile_cons_of_pos ha]
      | false => simp [hneg a ha, ha]

theorem trim_flatMap {g : Char → List Char}
    (hpos : ∀ c, isBlank c = true → ∀ d ∈ g c, isBlank d = true)
    (hneg : ∀ c, isBlank c = false → g c = [c]) (cs : List Char) :
    trim (cs.flatMap g) = (trim cs).flatMap g := by
  have hreverse : ∀ ds : List Char, trimRight (ds.flatMap g) = (trimRight ds).flatMap g := by
    intro ds
    rw [trimRight, trimRight, trimRightBy, trimRightBy, List.reverse_flatMap,
      dropWhile_flatMap (by simpa using hpos) (by intro c hc; simp [hneg c hc]),
      List.reverse_flatMap]
    simp [Function.comp_def]
  rw [trim, trim, trimLeftBy, trimLeftBy, dropWhile_flatMap hpos hneg, hreverse]

/-! ## The line ends of another system -/

/-- Writes a carriage return before every line feed. -/
def windowsBreaks (cs : List Char) : List Char :=
  cs.flatMap fun c => if c = '\n' then ['\r', '\n'] else [c]

theorem windowsBreaks_append (cs ds : List Char) :
    windowsBreaks (cs ++ ds) = windowsBreaks cs ++ windowsBreaks ds :=
  List.flatMap_append

theorem windowsBreaks_eq_self {cs : List Char} (h : '\n' ∉ cs) : windowsBreaks cs = cs := by
  induction cs with
  | nil => rfl
  | cons c cs ih =>
      obtain ⟨hc, hcs⟩ := not_or.mp (mt List.mem_cons.mpr h)
      rw [windowsBreaks, List.flatMap_cons, if_neg (Ne.symm hc)]
      exact congrArg (c :: ·) (ih hcs)

/-- A text is changed exactly if it has a line feed. -/
theorem windowsBreaks_eq_self_iff {cs : List Char} : windowsBreaks cs = cs ↔ '\n' ∉ cs := by
  refine ⟨fun h hmem => ?_, windowsBreaks_eq_self⟩
  have hlen : ∀ ds : List Char, ds.length + ds.count '\n' = (windowsBreaks ds).length := by
    intro ds
    induction ds with
    | nil => rfl
    | cons d ds ih =>
        rw [windowsBreaks, List.flatMap_cons, List.length_append, ← windowsBreaks, ← ih]
        by_cases hd : d = '\n' <;> simp [hd] <;> omega
  have hcount := hlen cs
  rw [h] at hcount
  have hpos : 0 < cs.count '\n' := List.count_pos_iff.mpr hmem
  omega

theorem trim_windowsBreaks (cs : List Char) :
    trim (windowsBreaks cs) = windowsBreaks (trim cs) := by
  refine trim_flatMap (fun c hc d hd => ?_) (fun c hc => if_neg ?_) cs
  · split at hd
    · simp only [List.mem_cons, List.not_mem_nil, or_false] at hd
      rcases hd with rfl | rfl <;> rfl
    · rwa [List.mem_singleton.mp hd]
  · rintro rfl
    cases hc

/-! ## What is found in the lines -/

section Gather

variable {α : Type} {f : List Char → Option α}

/-- What `f` finds in the lines of a text, in order. -/
def gather (f : List Char → Option α) (cs : List Char) : List α := (lines cs).filterMap f

/-- **A line feed keeps what is found before and after it apart.** -/
theorem gather_append_newline (hnil : f [] = none) (cs ds : List Char) :
    gather f (cs ++ '\n' :: ds) = gather f cs ++ gather f ds := by
  rcases lines_append_break_cases (c := '\n') rfl cs ds (by simp) with h | h <;>
    simp [gather, h, hnil]

theorem gather_concat_of_isLineBreak {c : Char} (hnil : f [] = none) (hc : isLineBreak c = true)
    (cs : List Char) : gather f (cs ++ [c]) = gather f cs := by
  rcases lines_append_break_cases hc cs [] (by simp) with h | h <;>
    simp [gather, h, hnil, lines]

/-- **Another way to end lines changes nothing.** -/
theorem gather_windowsBreaks (hnil : f [] = none) (cs : List Char) :
    gather f (windowsBreaks cs) = gather f cs := by
  induction hn : cs.length using Nat.strongRecOn generalizing cs with
  | ind n ih =>
      by_cases hmem : '\n' ∈ cs
      · -- at the first line feed, the carriage return ends the line before it once more
        obtain ⟨as, bs, rfl, has⟩ := List.eq_append_cons_of_mem hmem
        have hbreaks :
            windowsBreaks (as ++ '\n' :: bs) = as ++ ['\r'] ++ '\n' :: windowsBreaks bs := by
          rw [windowsBreaks_append, windowsBreaks_eq_self has, List.append_assoc]
          rfl
        have hbs : bs.length < n := by
          rw [← hn]
          simp
          omega
        calc gather f (windowsBreaks (as ++ '\n' :: bs))
            = gather f (as ++ ['\r']) ++ gather f (windowsBreaks bs) := by
              rw [hbreaks, gather_append_newline hnil]
          _ = gather f as ++ gather f bs := by
              rw [gather_concat_of_isLineBreak hnil rfl, ih _ hbs bs rfl]
          _ = gather f (as ++ '\n' :: bs) := (gather_append_newline hnil as bs).symm
      · rw [windowsBreaks_eq_self hmem]

theorem gather_concat_of_isBlank {c : Char} (hnil : f [] = none)
    (hblank : ∀ l c, isBlank c = true → f (l ++ [c]) = f l) (hc : isBlank c = true)
    (cs : List Char) : gather f (cs ++ [c]) = gather f cs := by
  cases hbreak : isLineBreak c with
  | true => exact gather_concat_of_isLineBreak hnil hbreak cs
  | false =>
      rcases addsLast_lines_concat hbreak cs with h | ⟨ls, l, hcs, h⟩
      · have hline : f [c] = none := (hblank [] c hc).trans hnil
        simp [gather, h, hline]
      · simp [gather, hcs, h, List.filterMap_cons, hblank l c hc]

/-- **Blanks at the end of a text change nothing** for a reader that does not look at those at the
end of a line. -/
theorem gather_trimRight (hnil : f [] = none)
    (hblank : ∀ l c, isBlank c = true → f (l ++ [c]) = f l) (cs : List Char) :
    gather f (trimRight cs) = gather f cs := by
  induction cs using List.reverseRecOn with
  | nil => rfl
  | append_singleton cs c ih =>
      rw [trimRight_concat]
      split
      · next hc => rw [ih, gather_concat_of_isBlank hnil hblank hc]
      · rfl

end Gather

end SketchBuild.Text
