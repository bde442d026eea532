import SketchBuild.Text.Pad
import SketchBuild.Text.Surrogate

/-!
# Strings

A string is a text, unless an escape in a file tore a surrogate pair: then it holds a half that is
no character. Torn strings are put together and quoted as texts are, and a log shows each half by
its escape. But the console does not print a torn string, and neither a file nor a program has one
for a name.
-/

namespace SketchBuild.Text

/-- A text, or pieces with a half of a surrogate pair among them. -/
inductive Str
  | text (s : String)
  | torn (pieces : List Piece) (isTorn : chars? pieces = none)
deriving DecidableEq, Repr

namespace Str

instance : Coe String Str := ⟨text⟩

/-- The string of some pieces. -/
def ofPieces (ps : List Piece) : Str :=
  match h : chars? ps with
  | some cs => .text (String.ofList cs)
  | none => .torn ps h

/-- The pieces of a string. -/
def pieces : Str → List Piece
  | .text s => s.toList.map .char
  | .torn ps _ => ps

/-- The pieces of a text make the text again. -/
@[simp] theorem ofPieces_map_char (cs : List Char) :
    ofPieces (cs.map .char) = .text (String.ofList cs) := by
  unfold ofPieces
  split
  · next h =>
      rw [chars?_map_char] at h
      cases h
      rfl
  · next h =>
      rw [chars?_map_char] at h
      cases h

/-- Whether a string is a text. -/
def isText : Str → Bool
  | .text _ => true
  | .torn _ _ => false

@[simp] theorem isText_text (s : String) : (text s).isText = true := rfl

@[simp] theorem isText_torn (ps : List Piece) (h : chars? ps = none) :
    (torn ps h).isText = false := rfl

theorem isText_iff {s : Str} : s.isText = true ↔ ∃ t, s = .text t := by
  cases s <;> simp [isText]

/-- Whether a string is empty. -/
def isEmpty : Str → Bool
  | .text s => s.isEmpty
  | .torn _ _ => false

theorem isEmpty_of_torn {s : Str} (h : s.isText = false) : s.isEmpty = false := by
  cases s with
  | text s => cases h
  | torn ps hps => rfl

/-- A string as a text, in which the replacement character stands for each half. -/
def shown : Str → String
  | .text s => s
  | .torn ps _ => String.ofList (ps.map Piece.shown)

/-- A string as a text, in which its escape stands for each half. -/
def escaped : Str → String
  | .text s => s
  | .torn ps _ => String.ofList (ps.flatMap fun
      | .char c => [c]
      | .half h => h.escape)

/-- A string between quotes. -/
def quoted : Str → String
  | .text s => quote s
  | .torn ps _ => String.ofList (quotePieces ps)

/-! ### Putting strings together -/

/-- One string after the other. -/
def append : Str → Str → Str
  | .text s, .text t => .text (s ++ t)
  | a, b => ofPieces (a.pieces ++ b.pieces)

instance : Append Str := ⟨append⟩

@[simp] theorem text_append_text (s t : String) : text s ++ text t = text (s ++ t) := rfl

theorem isText_eq_false_iff {s : Str} : s.isText = false ↔ chars? s.pieces = none := by
  cases s with
  | text s => simp [isText, pieces]
  | torn ps h => simp [isText, pieces, h]

theorem isText_ofPieces_eq_false_iff {ps : List Piece} :
    (ofPieces ps).isText = false ↔ chars? ps = none := by
  unfold ofPieces
  split
  · next h => simp [isText, h]
  · next h => simp [isText, h]

/-- What is put together is torn as soon as one part is. -/
@[simp] theorem isText_append (a b : Str) : (a ++ b).isText = (a.isText && b.isText) := by
  have hiff : (ofPieces (a.pieces ++ b.pieces)).isText = (a.isText && b.isText) := by
    rw [Bool.eq_iff_iff, ← Decidable.not_iff_not, Bool.not_eq_true, Bool.not_eq_true,
      isText_ofPieces_eq_false_iff]
    simp only [Bool.and_eq_false_iff, isText_eq_false_iff, chars?_eq_none_iff, List.mem_append,
      exists_or]
  cases a with
  | torn ps h => exact hiff
  | text s =>
    cases b with
    | torn ps h => exact hiff
    | text t => rfl

theorem eq_text_of_append_eq {s t : String} {m : Str} (h : text s ++ m = text t) :
    ∃ u, m = text u ∧ t = s ++ u := by
  cases m with
  | text u =>
    cases h
    exact ⟨u, rfl, rfl⟩
  | torn ps hps =>
    have htext := isText_append (text s) (torn ps hps)
    rw [h] at htext
    cases htext

/-- Strings with a separator between them. -/
def intercalate (sep : Str) : List Str → Str
  | [] => .text ""
  | [s] => s
  | s :: ss => s ++ sep ++ intercalate sep ss

@[simp] theorem isText_intercalate (sep : String) (ss : List Str) :
    (intercalate (.text sep) ss).isText = ss.all isText := by
  fun_induction intercalate with
  | case1 => rfl
  | case2 s => simp
  | case3 s ss hss ih =>
    rw [isText_append, isText_append, ih]
    simp [isText]

/-- Fills up a string on the right. -/
def padRight (width : Nat) : Str → Str
  | .text s => .text (Text.padRight width s)
  | .torn ps h => .torn ps h ++ .text (blanks (width - ps.length))

@[simp] theorem isText_padRight (width : Nat) (s : Str) : (s.padRight width).isText = s.isText := by
  cases s with
  | text s => rfl
  | torn ps h => simp [padRight]

/-! ### Encoding -/

/-- The first halves of torn pieces that have `before` others in front. -/
def firstHalves (before : Nat) : (ps : List Piece) → chars? ps = none → Unencodable
  | [], h => nomatch h
  | .half h :: ps, _ => ⟨before, 1 + (ps.takeWhile Piece.isHalf).length, h⟩
  | .char _ :: ps, h => firstHalves (before + 1) ps (Option.map_eq_none_iff.mp h)

/-- The text of a string that is to be printed. -/
def printable : Str → Except Unencodable String
  | .text s => .ok s
  | .torn ps h => .error (firstHalves 0 ps h)

/-- The text of a string that is to be the name of a file or a word of a command. The fault lies
with a half that does not even stand for a byte, if there is one. Bytes that are no text are no name
either. -/
def nameable : Str → Except Unencodable String
  | .text s => .ok s
  | .torn ps h => .error ((stuck? Half.isByte 0 ps).getD (firstHalves 0 ps h))

/-- The texts of the words of a command. -/
def words : List Str → Except Unencodable (List String)
  | [] => .ok []
  | s :: ss =>
    match s.nameable with
    | .error e => .error e
    | .ok w =>
      match words ss with
      | .error e => .error e
      | .ok ws => .ok (w :: ws)

theorem exists_printable_error {s : Str} (h : s.isText = false) :
    ∃ e, s.printable = .error e := by
  cases s with
  | text s => cases h
  | torn ps hps => exact ⟨_, rfl⟩

/-- A command has the words that it is made of, if they are texts. -/
theorem words_map_text (ws : List String) : words (ws.map .text) = .ok ws := by
  induction ws with
  | nil => rfl
  | cons w ws ih => simp [words, nameable, ih]

theorem ne_nil_of_words {ss : List Str} {ws : List String} (h : words ss = .ok ws)
    (hss : ss ≠ []) : ws ≠ [] := by
  rintro rfl
  cases ss with
  | nil => exact hss rfl
  | cons s ss =>
    rw [words] at h
    split at h
    · cases h
    · split at h <;> cases h

theorem exists_words_error {ss : List Str} {s : Str} (hs : s ∈ ss) (h : s.isText = false) :
    ∃ e, words ss = .error e := by
  induction ss with
  | nil => cases hs
  | cons s' ss ih =>
    rw [words]
    split
    · next e he => exact ⟨e, rfl⟩
    · next w hw =>
        rcases List.mem_cons.mp hs with rfl | hs
        · cases s <;> simp [nameable, isText] at hw h
        · obtain ⟨e, he⟩ := ih hs
          exact ⟨e, by rw [he]⟩

end Str

end SketchBuild.Text
