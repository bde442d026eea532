import Mathlib.Data.List.SplitBy
import SketchBuild.Proofs.Sketch.Name

/-!
# Sketch names by runs

A sketch name is written character by character, and what is written for a character depends on the
one that was written before it. The same name can be told of the text as a whole. Everything before
the first letter or underscore is dropped. In what is left, each longest run of characters that no
name may hold becomes one underscore, or nothing if there is an underscore right before the run.

`cleanName_projects` says that the two agree, and that names are projected onto identifiers: these
stay as they are, and nothing else does but the empty name.
-/

namespace SketchBuild.Sketch

/-- The characters that a sketch name may hold. -/
def isNamePart (c : Char) : Bool := isNameStart c || c.isDigit

/-! ## Runs -/

/-- A text without its longest beginning that holds neither a letter nor an underscore. -/
def fromFirstStart (cs : List Char) : List Char := cs.dropWhile fun c => !isNameStart c

/-- The longest runs of a text in which every character may stand in a name, or none may. -/
def runs (cs : List Char) : List (List Char) :=
  cs.splitBy fun a b => isNamePart a == isNamePart b

/-- What is written for a run, given the character before it. -/
def replaceRun (before : Option Char) (run : List Char) : List Char :=
  if run.all isNamePart then run else if before = some '_' then [] else ['_']

/-- What is written for runs that follow each other, given the character before the first. -/
def replaceRuns (before : Option Char) (rs : List (List Char)) : List Char :=
  (List.zipWith replaceRun (before :: rs.map List.getLast?) rs).flatten

theorem replaceRuns_cons (before : Option Char) (run : List Char) (rs : List (List Char)) :
    replaceRuns before (run :: rs) = replaceRun before run ++ replaceRuns run.getLast? rs := rfl

/-- If neighbours are of one kind, then so are all characters. -/
theorem all_eq_of_isChain {run : List Char}
    (h : run.IsChain fun a b => isNamePart a = isNamePart b) :
    ∀ c ∈ run, isNamePart c = run.all isNamePart := by
  induction run with
  | nil => simp
  | cons a run ih =>
      cases run with
      | nil => simp
      | cons b rest =>
          obtain ⟨hab, hrest⟩ := List.isChain_cons_cons.mp h
          have hb : isNamePart b = (b :: rest).all isNamePart := ih hrest b List.mem_cons_self
          have hall : (a :: b :: rest).all isNamePart = isNamePart a := by
            rw [List.all_cons, ← hb, ← hab, Bool.and_self]
          intro c hc
          rw [hall]
          rcases List.mem_cons.mp hc with rfl | hc
          · rfl
          · rw [ih hrest c hc, ← hb, hab]

/-- What makes a list of texts the runs of a text: none of them is empty, each is of one kind, and
the kinds alternate. -/
structure Alternating (rs : List (List Char)) : Prop where
  nonempty : ∀ run ∈ rs, run ≠ []
  alike : ∀ run ∈ rs, ∀ c ∈ run, isNamePart c = run.all isNamePart
  alternate : rs.IsChain fun a b => b.all isNamePart = !a.all isNamePart

theorem alternating_runs (cs : List Char) : Alternating (runs cs) := by
  have halike : ∀ run ∈ runs cs, ∀ c ∈ run, isNamePart c = run.all isNamePart := by
    intro run hrun
    exact all_eq_of_isChain (by simpa using List.isChain_of_mem_splitBy hrun)
  refine ⟨fun run => List.ne_nil_of_mem_splitBy, halike, ?_⟩
  refine (List.isChain_getLast_head_splitBy _ cs).imp_of_mem_imp ?_
  rintro a b ha hb ⟨hne, hne', hdiff⟩
  have hlast := halike a ha _ (List.getLast_mem hne)
  have hhead := halike b hb _ (List.head_mem hne')
  rw [← hlast, ← hhead]
  revert hdiff
  cases isNamePart (a.getLast hne) <;> cases isNamePart (b.head hne') <;> simp

theorem Alternating.tail {run : List Char} {rs : List (List Char)}
    (h : Alternating (run :: rs)) : Alternating rs where
  nonempty r hr := h.nonempty r (List.mem_cons_of_mem run hr)
  alike r hr := h.alike r (List.mem_cons_of_mem run hr)
  alternate := (List.isChain_cons.mp h.alternate).2

/-! ## What is written for a run -/

/-- Characters that may stand in a name are kept. -/
theorem cleanAfter_append_of_part {run : List Char} (h : ∀ c ∈ run, isNamePart c = true)
    (last : Char) (rest : List Char) :
    cleanAfter (some last) (run ++ rest) =
      run ++ cleanAfter (some (run.getLast?.getD last)) rest := by
  induction run generalizing last with
  | nil => rfl
  | cons c run ih =>
      obtain ⟨hc, hrun⟩ := List.forall_mem_cons.mp h
      have hkeep : (isNameStart c || (c.isDigit && (some last).isSome)) = true := by
        simpa [isNamePart] using hc
      rw [List.cons_append, cleanAfter, if_pos hkeep, ih hrun, List.getLast?_cons]
      rfl

/-- A character that no name may hold becomes an underscore, unless it follows one. -/
theorem cleanAfter_cons_of_foreign {c : Char} (h : isNamePart c = false) (last : Char)
    (rest : List Char) :
    cleanAfter (some last) (c :: rest) =
      (if some last = some '_' then [] else ['_']) ++ cleanAfter (some '_') rest := by
  obtain ⟨hstart, hdigit⟩ : isNameStart c = false ∧ c.isDigit = false := by
    simpa [isNamePart] using h
  rw [cleanAfter]
  by_cases hlast : last = '_'
  · simp [hstart, hdigit, hlast]
  · simp [hstart, hdigit, hlast]

/-- After an underscore, characters that no name may hold are dropped. -/
theorem cleanAfter_underscore_append {run : List Char} (h : ∀ c ∈ run, isNamePart c = false)
    (rest : List Char) :
    cleanAfter (some '_') (run ++ rest) = cleanAfter (some '_') rest := by
  induction run with
  | nil => rfl
  | cons c run ih =>
      obtain ⟨hc, hrun⟩ := List.forall_mem_cons.mp h
      rw [List.cons_append, cleanAfter_cons_of_foreign hc, ih hrun]
      rfl

/-- A run of characters that no name may hold becomes one underscore, unless it follows one. -/
theorem cleanAfter_append_of_foreign {run : List Char} (hne : run ≠ [])
    (h : ∀ c ∈ run, isNamePart c = false) (last : Char) (rest : List Char) :
    cleanAfter (some last) (run ++ rest) =
      (if some last = some '_' then [] else ['_']) ++ cleanAfter (some '_') rest := by
  obtain ⟨c, run, rfl⟩ := List.exists_cons_of_ne_nil hne
  obtain ⟨hc, hrun⟩ := List.forall_mem_cons.mp h
  rw [List.cons_append, cleanAfter_cons_of_foreign hc, cleanAfter_underscore_append hrun]

/-- **A name is written run by run.** The character that was written last matters only for a run
that is to be replaced; there it is the character before the run. -/
theorem cleanAfter_flatten {rs : List (List Char)} (hrs : Alternating rs) (last : Char)
    {before : Option Char}
    (h : ∀ run ∈ rs.head?, run.all isNamePart = false → before = some last) :
    cleanAfter (some last) rs.flatten = replaceRuns before rs := by
  induction rs generalizing last before with
  | nil => rfl
  | cons run rs ih =>
      have hne := hrs.nonempty run List.mem_cons_self
      have halike := hrs.alike run List.mem_cons_self
      have hnext := (List.isChain_cons.mp hrs.alternate).1
      rw [List.flatten_cons, replaceRuns_cons, replaceRun]
      cases hall : run.all isNamePart with
      | true =>
          rw [hall] at halike
          rw [if_pos rfl, cleanAfter_append_of_part halike]
          congr 1
          refine ih hrs.tail _ fun _ _ _ => ?_
          rw [List.getLast?_eq_some_getLast hne]
          rfl
      | false =>
          rw [hall] at halike
          obtain rfl : before = some last := h run rfl hall
          rw [if_neg (by simp), cleanAfter_append_of_foreign hne halike]
          congr 1
          refine ih hrs.tail _ fun next hmem hforeign => ?_
          -- the next run is of the other kind, so it is kept
          rw [hnext next hmem, hall] at hforeign
          cases hforeign

/-! ## The whole name -/

/-- What stands before the first letter or underscore is dropped. -/
theorem cleanAfter_none (cs : List Char) :
    cleanAfter none cs = cleanAfter (some '_') (fromFirstStart cs) := by
  induction cs with
  | nil => rfl
  | cons c cs ih =>
      rw [cleanAfter]
      cases hc : isNameStart c with
      | true => simp [fromFirstStart, cleanAfter, hc]
      | false => simpa [fromFirstStart, hc] using ih

theorem cleanAfter_eq_replaceRuns (cs : List Char) :
    cleanAfter none cs = replaceRuns none (runs (fromFirstStart cs)) := by
  have hflat : (runs (fromFirstStart cs)).flatten = fromFirstStart cs := List.flatten_splitBy _ _
  rw [cleanAfter_none, ← cleanAfter_flatten (alternating_runs _) '_', hflat]
  -- the first run begins with a letter or underscore, so it is kept
  intro run hrun hforeign
  obtain ⟨rest, hrest⟩ := List.head?_eq_some_iff.mp hrun
  have halternating := hrest ▸ alternating_runs (fromFirstStart cs)
  obtain ⟨c, run, rfl⟩ := List.exists_cons_of_ne_nil
    (halternating.nonempty run List.mem_cons_self)
  have hcs : fromFirstStart cs = c :: (run ++ rest.flatten) := by
    rw [← hflat, hrest]
    rfl
  have hstart : isNameStart c = true := by
    have hhead := List.head?_dropWhile_not (fun c => !isNameStart c) cs
    rw [← fromFirstStart, hcs] at hhead
    simpa using hhead
  have hpart := halternating.alike _ List.mem_cons_self c List.mem_cons_self
  rw [hforeign, isNamePart, hstart] at hpart
  cases hpart

theorem cleanName_of_isIdentifier {s : String} (h : IsIdentifier s) : cleanName s = s := by
  obtain ⟨c, cs, hs, hc, hcs⟩ := h
  have hclean : cleanAfter none (c :: cs) = c :: cs := by
    have hkept := cleanAfter_append_of_part hcs c []
    rw [List.append_nil] at hkept
    rw [cleanAfter, if_pos (by rw [hc, Bool.true_or]), hkept, cleanAfter, List.append_nil]
  rw [cleanName, hs, hclean, ← hs, String.ofList_toList]

theorem cleanName_cleanName (s : String) : cleanName (cleanName s) = cleanName s := by
  by_cases h : cleanName s = ""
  · rw [h]
    rfl
  · exact cleanName_of_isIdentifier (isIdentifier_cleanName h)

theorem nameFor_of_isIdentifier {s : String} (h : IsIdentifier s) : nameFor s = s := by
  rw [nameFor, cleanName_of_isIdentifier h, if_neg (by simpa using h.ne_empty)]

/-- **Sketch names are a projection onto identifiers.** A name is cleaned run by run; it stays as it
is exactly if it is empty or an identifier, so cleaning it twice is cleaning it once. The name of a
sketch is always an identifier. -/
theorem cleanName_projects (s : String) :
    cleanName s = String.ofList (replaceRuns none (runs (fromFirstStart s.toList))) ∧
    (cleanName s = s ↔ s = "" ∨ IsIdentifier s) ∧
    cleanName (cleanName s) = cleanName s ∧
    IsIdentifier (nameFor s) ∧ nameFor (nameFor s) = nameFor s := by
  refine ⟨?_, ⟨fun h => ?_, ?_⟩, cleanName_cleanName s, isIdentifier_nameFor s,
    nameFor_of_isIdentifier (isIdentifier_nameFor s)⟩
  · rw [cleanName, cleanAfter_eq_replaceRuns]
  · rw [or_iff_not_imp_left]
    intro hne
    rw [← h] at hne ⊢
    exact isIdentifier_cleanName hne
  · rintro (rfl | hs)
    · rfl
    · exact cleanName_of_isIdentifier hs

end SketchBuild.Sketch
