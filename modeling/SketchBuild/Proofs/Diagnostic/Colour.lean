import Mathlib.Data.List.DropRight
import Mathlib.Data.List.Forall2
import SketchBuild.Console
import SketchBuild.Proofs.Action
import SketchBuild.Proofs.Json.RoundTrip

/-!
# Colours only decorate

A diagnostic is shown with the codes of the terminal or without. The codes all start with the escape
character and none is the beginning of another, so in a text that holds no escape character of its
own they can be told apart from what they surround: deleting them from the coloured rendering leaves
the plain one.

Each part of a rendering is told by `Palette.Bares s t`: without its codes, `s` is `t`, whatever
follows. Texts without the escape character bare themselves, a code bares nothing, and the relation
is kept when parts are put together.
-/

namespace SketchBuild

namespace Text

/-- Deletes every occurrence of some words, from the left to the right. -/
def deleteAll (words : List (List Char)) : List Char → List Char
  | [] => []
  | c :: cs =>
    match words.find? (·.isPrefixOf (c :: cs)) with
    | some word => deleteAll words (cs.drop (word.length - 1))
    | none => c :: deleteAll words cs
termination_by cs => cs.length

/-- No word is the beginning of another. -/
def PrefixFree (words : List (List Char)) : Prop := ∀ a ∈ words, ∀ b ∈ words, a <+: b → a = b

section Delete

variable {words : List (List Char)} {mark : Char}

theorem deleteAll_append_of_not_mem (hmark : ∀ word ∈ words, word.head? = some mark)
    {cs : List Char} (h : mark ∉ cs) (rest : List Char) :
    deleteAll words (cs ++ rest) = cs ++ deleteAll words rest := by
  induction cs with
  | nil => rfl
  | cons c cs ih =>
      obtain ⟨hc, hcs⟩ := List.ne_and_not_mem_of_not_mem_cons h
      have hnone : words.find? (·.isPrefixOf (c :: (cs ++ rest))) = none := by
        refine List.find?_eq_none.mpr fun word hword hpre => hc ?_
        obtain ⟨tail, rfl⟩ := List.head?_eq_some_iff.mp (hmark word hword)
        exact (List.cons_prefix_cons.mp (List.isPrefixOf_iff_prefix.mp hpre)).1
      rw [List.cons_append, deleteAll, hnone, ih hcs]
      rfl

theorem deleteAll_append_word (hmark : ∀ word ∈ words, word.head? = some mark)
    (hfree : PrefixFree words) {word : List Char} (h : word ∈ words) (rest : List Char) :
    deleteAll words (word ++ rest) = deleteAll words rest := by
  have hfind : words.find? (·.isPrefixOf (word ++ rest)) = some word := by
    have hpre : word <+: word ++ rest := List.prefix_append word rest
    have hsome : (words.find? (·.isPrefixOf (word ++ rest))).isSome :=
      List.find?_isSome.mpr ⟨word, h, List.isPrefixOf_iff_prefix.mpr hpre⟩
    obtain ⟨found, hfound⟩ := Option.isSome_iff_exists.mp hsome
    have hmem := List.mem_of_find?_eq_some hfound
    -- both words start here, so one is the beginning of the other
    have hpre' := List.isPrefixOf_iff_prefix.mp (List.find?_some hfound :)
    rcases List.prefix_or_prefix_of_prefix hpre hpre' with hle | hle
    · rw [hfound, hfree word h found hmem hle]
    · rw [hfound, hfree found hmem word h hle]
  obtain ⟨tail, rfl⟩ := List.head?_eq_some_iff.mp (hmark word h)
  rw [List.cons_append] at hfind ⊢
  rw [deleteAll, hfind]
  dsimp only
  rw [List.length_cons, Nat.add_sub_cancel, List.drop_left]

end Delete

/-- The character that starts every code of a terminal. -/
def escape : Char := '\x1b'

/-- A text that holds no escape character. -/
def EscapeFree (s : String) : Prop := escape ∉ s.toList
deriving Decidable

theorem EscapeFree.append {s t : String} (hs : EscapeFree s) (ht : EscapeFree t) :
    EscapeFree (s ++ t) := by
  rw [EscapeFree, String.toList_append, List.mem_append, not_or]
  exact ⟨hs, ht⟩

theorem escapeFree_toString (n : Int) : EscapeFree (toString n) := fun hmem =>
  absurd (Json.isPrinted_of_mem_toString n _ hmem) (by decide)

theorem EscapeFree.padLeft {s : String} (h : EscapeFree s) (width : Nat) :
    EscapeFree (padLeft width s) := by
  refine .append (fun hmem => ?_) h
  rw [blanks, String.toList_ofList] at hmem
  exact absurd (List.eq_of_mem_replicate hmem) (by decide)

theorem EscapeFree.strip {s : String} (h : EscapeFree s) : EscapeFree (strip s) := by
  intro hmem
  rw [Text.strip, String.toList_ofList] at hmem
  refine h ((List.dropWhile_sublist isBlank).subset ?_)
  exact (List.rdropWhile_prefix isBlank _).subset hmem

end Text

open Text (EscapeFree)

namespace Palette

/-- The texts of a palette. -/
def texts (c : Palette) : List (List Char) :=
  [c.red, c.green, c.yellow, c.cyan, c.dim, c.reset].map String.toList

/-- A text without the codes of a palette. -/
def bare (c : Palette) (s : String) : String := String.ofList (Text.deleteAll c.texts s.toList)

/-- Without its codes, `s` is `t`, whatever follows. -/
def Bares (s t : String) : Prop :=
  ∀ rest, Text.deleteAll ansi.texts (s.toList ++ rest) =
    t.toList ++ Text.deleteAll ansi.texts rest

theorem head?_texts_ansi : ∀ code ∈ ansi.texts, code.head? = some Text.escape := by
  decide +kernel

theorem prefixFree_texts_ansi : Text.PrefixFree ansi.texts := by
  unfold Text.PrefixFree
  decide +kernel

namespace Bares

variable {s s' t t' : String}

theorem bare_eq (h : Bares s t) : ansi.bare s = t := by
  have hs := h []
  rw [List.append_nil, Text.deleteAll, List.append_nil] at hs
  rw [bare, hs, String.ofList_toList]

theorem append (h : Bares s t) (h' : Bares s' t') : Bares (s ++ s') (t ++ t') := by
  intro rest
  rw [String.toList_append, String.toList_append, List.append_assoc, h, h', List.append_assoc]

/-- Only the codes hold the escape character. -/
theorem of_escapeFree (h : EscapeFree s) : Bares s s :=
  Text.deleteAll_append_of_not_mem head?_texts_ansi h

theorem code (h : s.toList ∈ ansi.texts) : Bares s "" :=
  Text.deleteAll_append_word head?_texts_ansi prefixFree_texts_ansi h

theorem intercalate {sep : String} (hsep : EscapeFree sep) {ss ts : List String}
    (h : List.Forall₂ Bares ss ts) : Bares (sep.intercalate ss) (sep.intercalate ts) := by
  induction h with
  | nil => exact of_escapeFree List.not_mem_nil
  | cons hs hss ih =>
      cases hss with
      | nil => simpa using hs
      | cons hs' hss =>
          rw [String.intercalate_cons_cons, String.intercalate_cons_cons]
          exact (hs.append (of_escapeFree hsep)).append ih

end Bares

end Palette

/-! ## Rendering -/

/-- Of several switches the last one counts: it writes every field over. -/
theorem Console.forM_setColor (switches : List Bool) (w : World) :
    ∃ w', switches.forM setColor w = .ok () w' ∧ w'.trace = w.trace ∧
      w'.palette = (switches.getLast?.map Palette.of).getD w.palette := by
  induction switches generalizing w with
  | nil => exact ⟨w, rfl, rfl, rfl⟩
  | cons b bs ih =>
      obtain ⟨w₁, hstep, htrace, hpalette⟩ : ∃ w₁, setColor b w = .ok () w₁ ∧
          w₁.trace = w.trace ∧ w₁.palette = .of b :=
        ⟨_, rfl, rfl, w.palette.switch_eq_of b⟩
      obtain ⟨w', hrest, htrace', hpalette'⟩ := ih w₁
      refine ⟨w', (Action.bind_of_ok hstep).trans hrest, htrace'.trans htrace, ?_⟩
      rw [hpalette', hpalette, List.getLast?_cons]
      cases bs.getLast? <;> rfl

namespace Diagnostic

open Palette (Bares ansi plain)

/-- No text of a traceback holds the escape character. -/
structure Traceback.EscapeFree (t : Traceback) : Prop where
  kind : Text.EscapeFree t.kind
  message : Text.EscapeFree t.message
  file : ∀ f ∈ t.frames, Text.EscapeFree f.file
  label : ∀ f ∈ t.frames, Text.EscapeFree f.label
  text : ∀ f ∈ t.frames, ∀ c ∈ f.code, Text.EscapeFree c.text

theorem bares_red : Bares ansi.red plain.red := .code (by decide +kernel)

theorem bares_cyan : Bares ansi.cyan plain.cyan := .code (by decide +kernel)

theorem bares_dim : Bares ansi.dim plain.dim := .code (by decide +kernel)

theorem bares_reset : Bares ansi.reset plain.reset := .code (by decide +kernel)

theorem escapeFree_numberText (n : Int) : EscapeFree (numberText n) := by
  rw [numberText]
  split
  · decide
  · exact Text.escapeFree_toString n

theorem CodeLine.bares_render {c : CodeLine} (h : EscapeFree c.text) (width : Nat) :
    Bares (c.render ansi width) (c.render plain width) := by
  have hnumber : Bares (Text.padLeft width (numberText c.number))
      (Text.padLeft width (numberText c.number)) :=
    .of_escapeFree ((escapeFree_numberText c.number).padLeft width)
  have htext : Bares (if c.number = 0 then Text.strip c.text else c.text)
      (if c.number = 0 then Text.strip c.text else c.text) := by
    refine .of_escapeFree ?_
    split
    · exact h.strip
    · exact h
  have hbar : Bares " │ " " │ " := .of_escapeFree (by decide)
  rw [render, render]
  split
  · have hmargin : Bares "  " "  " := .of_escapeFree (by decide)
    have harrow : Bares "→ " "→ " := .of_escapeFree (by decide)
    exact (((((hmargin.append bares_red).append harrow).append hnumber).append hbar).append
      htext).append bares_reset
  · have hmargin : Bares "    " "    " := .of_escapeFree (by decide)
    have hbar' : Bares " │" " │" := .of_escapeFree (by decide)
    have hgap : Bares " " " " := .of_escapeFree (by decide)
    exact (((((hmargin.append bares_dim).append hnumber).append hbar').append bares_reset).append
      hgap).append htext

theorem Frame.bares_location {f : Frame} (hfile : EscapeFree f.file) (hlabel : EscapeFree f.label) :
    Bares (f.location ansi) (f.location plain) := by
  have hopen : Bares "  File \"" "  File \"" := .of_escapeFree (by decide)
  have hclose : Bares "\"" "\"" := .of_escapeFree (by decide)
  have hline : Bares (if f.line = 0 then "" else s!", line {f.line}")
      (if f.line = 0 then "" else s!", line {f.line}") := by
    refine .of_escapeFree ?_
    split
    · decide
    · exact .append (by decide) (Text.escapeFree_toString f.line)
  have hin : Bares (if f.label.isEmpty then "" else s!", in {f.label}")
      (if f.label.isEmpty then "" else s!", in {f.label}") := by
    refine .of_escapeFree ?_
    split
    · decide
    · exact .append (by decide) hlabel
  exact (((((hopen.append bares_cyan).append (.of_escapeFree hfile)).append bares_reset).append
    hclose).append hline).append hin

/-- The rows of a frame are bared one by one; their number does not depend on the colours. -/
theorem Frame.bares_render {f : Frame} (hfile : EscapeFree f.file) (hlabel : EscapeFree f.label)
    (htext : ∀ c ∈ f.code, EscapeFree c.text) :
    List.Forall₂ Bares (f.render ansi) (f.render plain) := by
  refine .cons (f.bares_location hfile hlabel) ?_
  rw [List.forall₂_map_left_iff, List.forall₂_map_right_iff, List.forall₂_same]
  exact fun c hc => CodeLine.bares_render (htext c hc) _

theorem Traceback.EscapeFree.bares_rows {t : Traceback} (h : t.EscapeFree) :
    List.Forall₂ Bares (t.rows ansi) (t.rows plain) := by
  have hbanner : Bares "Traceback (most recent call last):" "Traceback (most recent call last):" :=
    .of_escapeFree (by decide)
  have hcolon : Bares ": " ": " := .of_escapeFree (by decide)
  have hframes : List.Forall₂ Bares (t.frames.flatMap (·.render ansi))
      (t.frames.flatMap (·.render plain)) := by
    rw [List.flatMap_def, List.flatMap_def]
    refine List.rel_flatten ?_
    rw [List.forall₂_map_left_iff, List.forall₂_map_right_iff, List.forall₂_same]
    exact fun f hf => f.bares_render (h.file f hf) (h.label f hf) (h.text f hf)
  refine .cons ((bares_dim.append hbanner).append bares_reset) (List.rel_append hframes ?_)
  refine .cons ((((bares_red.append (.of_escapeFree h.kind)).append bares_reset).append
    hcolon).append (.of_escapeFree h.message)) .nil

/-- **Colours only decorate a diagnostic.** If no text of a traceback holds the escape character,
deleting the codes from its coloured rendering gives the plain one. Whatever switches came before,
the rendering has the palette of the last one, and nothing of the palette before. -/
theorem Traceback.colour_only_decorates (t : Traceback) :
    (t.EscapeFree → ansi.bare (t.render (.of true)) = t.render (.of false)) ∧
    ∀ (switches : List Bool) (w : World), ∃ w',
      (switches.forM Console.setColor >>= fun _ => Console.traceback t) w = .ok () w' ∧
        w'.trace = w.trace ++
          [.complained (t.render ((switches.getLast?.map Palette.of).getD w.palette) ++ "\n")] := by
  refine ⟨fun h => ?_, fun switches w => ?_⟩
  · exact (Bares.intercalate (by decide) h.bares_rows).bare_eq
  · obtain ⟨w₁, hswitch, htrace, hpalette⟩ := Console.forM_setColor switches w
    refine ⟨_, (Action.bind_of_ok hswitch).trans rfl, ?_⟩
    show w₁.trace ++ [.complained (t.render w₁.palette ++ "\n")] = _
    rw [htrace, hpalette]

namespace ColourSample

/-- A traceback with a line that is pointed at, one that is not and one without a place. Its texts
look like codes but for the escape character. -/
def traceback : Traceback where
  kind := "error[0m"
  message := "undefined [1;31m"
  frames := [⟨"src/main.go", 14, "transpile",
    [⟨9, "[2m x", false⟩, ⟨14, "    Delay(1000)", true⟩, ⟨0, "  note ", false⟩]⟩]
  frames_ne_nil := List.cons_ne_nil _ _

theorem escapeFree_traceback : traceback.EscapeFree := by
  refine ⟨by decide, by decide, ?_, ?_, ?_⟩ <;> decide +kernel

end ColourSample

open ColourSample in
/-- The coloured rendering of the sample differs from the plain one by its codes alone. -/
theorem Traceback.colour_only_decorates_sample :
    traceback.EscapeFree ∧ traceback.render (.of true) ≠ traceback.render (.of false) ∧
      ansi.bare (traceback.render (.of true)) = traceback.render (.of false) := by
  refine ⟨escapeFree_traceback, by decide +kernel, ?_⟩
  exact traceback.colour_only_decorates.1 escapeFree_traceback

end Diagnostic

end SketchBuild
