import SketchBuild.Diagnostic.Normalize

/-!
# Blocks of the translator's output

The lines are read one after the other, with a frame that stays open until the next arrow line. What
that comes to can be told of the lines as a whole: each arrow line and the context lines up to the
next one are a block, each block becomes a frame, and the first header counts. `Scan.rest_of_step`
says what one line does to the part still to come, `Scan.foldlM_step` what all lines do, and
`read_eq` that reading is cutting into blocks.
-/

namespace SketchBuild.Diagnostic.Translator

open Text (trim TooManyDigits)

/-! ## Cutting into blocks -/

/-- An arrow line's location and the context lines that belong to it. -/
structure Block where
  location : List Char
  context : List (List Char × List Char)

/-- The context lines before the next arrow line. -/
def contextUpTo : List Line → List (List Char × List Char)
  | [] => []
  | .arrow _ :: _ => []
  | .context number code :: ls => (number, code) :: contextUpTo ls
  | _ :: ls => contextUpTo ls

/-- The blocks, one for each arrow line. -/
def blocks : List Line → List Block
  | [] => []
  | .arrow location :: ls => ⟨location, contextUpTo ls⟩ :: blocks ls
  | _ :: ls => blocks ls

/-- The first header's tag and message. -/
def firstHeader? : List Line → Option (List Char × List Char)
  | [] => none
  | .header tag message :: _ => some (tag, message)
  | _ :: ls => firstHeader? ls

/-- The lines of code of a frame at `line`. -/
def codeLines (line : Int) : List (List Char × List Char) → Except TooManyDigits (List CodeLine)
  | [] => .ok []
  | (number, code) :: rest =>
    match codeLine line number code with
    | .error e => .error e
    | .ok c =>
      match codeLines line rest with
      | .error e => .error e
      | .ok cs => .ok (c :: cs)

/-- A frame with the code of some context lines added. -/
def withContext (f : Frame) (context : List (List Char × List Char)) :
    Except TooManyDigits Frame :=
  match codeLines f.line context with
  | .error e => .error e
  | .ok code => .ok { f with code := f.code ++ code }

/-- The frame of a block; `origin` stands in for a missing file. -/
def Block.frame (origin : Option String) (b : Block) : Except TooManyDigits Frame :=
  match openFrame origin b.location with
  | .error e => .error e
  | .ok f => withContext f b.context

theorem Block.frame_eq (origin : Option String) (b : Block) :
    b.frame origin =
      match splitLocation b.location with
      | .error e => .error e
      | .ok (file, line) =>
        match codeLines line b.context with
        | .error e => .error e
        | .ok code =>
          .ok { file := textOr (textOr "" origin) (some (String.ofList file))
                line, label := Stage.translate.label, code } := by
  rw [frame, openFrame]
  cases splitLocation b.location with
  | error e => rfl
  | ok p =>
      dsimp only [withContext]
      cases codeLines p.2 b.context <;> simp

/-- The frames of blocks, in order. -/
def frames (origin : Option String) : List Block → Except TooManyDigits (List Frame)
  | [] => .ok []
  | b :: bs =>
    match b.frame origin with
    | .error e => .error e
    | .ok f =>
      match frames origin bs with
      | .error e => .error e
      | .ok fs => .ok (f :: fs)

/-! ## Reading is cutting -/

/-- A context line that comes next may be added at once. -/
theorem withContext_cons {f : Frame} {number code : List Char} {c : CodeLine}
    (h : codeLine f.line number code = .ok c) (context : List (List Char × List Char)) :
    withContext f ((number, code) :: context) =
      withContext { f with code := f.code ++ [c] } context := by
  rw [withContext, withContext, codeLines, h]
  dsimp only
  cases codeLines f.line context with
  | error e => rfl
  | ok cs => simp

namespace Scan

/-- The frame that is open, with the code that the lines still to come give it. -/
def closed (s : Scan) (ls : List Line) : Except TooManyDigits (List Frame) :=
  match s.current with
  | none => .ok []
  | some f => (withContext f (contextUpTo ls)).map ([·])

/-- What reading the lines still to come leads to: the header and all frames. -/
def rest (origin : Option String) (s : Scan) (ls : List Line) :
    Except TooManyDigits (Option (List Char × List Char) × List Frame) :=
  match s.closed ls with
  | .error e => .error e
  | .ok last =>
    (Translator.frames origin (blocks ls)).map fun fs =>
      (s.header.or (firstHeader? ls), s.done ++ last ++ fs)

/-- When no line is left, the scan has it all. -/
theorem rest_nil (origin : Option String) (s : Scan) :
    s.rest origin [] = .ok (s.header, s.frames) := by
  obtain ⟨header, done, current⟩ := s
  cases current <;> simp [rest, closed, frames, blocks, Translator.frames, firstHeader?,
    contextUpTo, withContext, codeLines, Except.map]

/-- **One line.** Reading it changes nothing about what all lines lead to. -/
theorem rest_cons (origin : Option String) (s : Scan) (l : Line) (ls : List Line) :
    s.rest origin (l :: ls) =
      match s.step origin l with
      | .error e => .error e
      | .ok s' => s'.rest origin ls := by
  cases l with
  | header tag message =>
      cases hh : s.header <;> simp [rest, closed, step, hh, blocks, firstHeader?, contextUpTo]
  | noise => rfl
  | context number code =>
      cases hc : s.current with
      | none => simp [rest, closed, step, hc, blocks, firstHeader?]
      | some f =>
          cases hcode : codeLine f.line number code with
          | error e => simp [rest, closed, step, hc, hcode, contextUpTo, withContext, codeLines,
              Except.map]
          | ok c => simp [rest, closed, step, hc, hcode, contextUpTo, withContext_cons hcode,
              blocks, firstHeader?]
  | arrow location =>
      -- the open frame takes no more code, and the next one is opened
      have hclosed : s.closed (.arrow location :: ls) = .ok s.current.toList := by
        cases hc : s.current with
        | none => simp [closed, hc]
        | some f => simp [closed, hc, contextUpTo, withContext, codeLines, Except.map]
      cases hopen : openFrame origin location with
      | error e => simp [rest, hclosed, step, hopen, blocks, Translator.frames, Block.frame,
          Except.map]
      | ok f =>
          have hopened : ∀ s' : Scan, s'.current = some f →
              s'.closed ls = (withContext f (contextUpTo ls)).map ([·]) := by
            intro s' hs'
            rw [closed, hs']
          rw [rest, hclosed, step, hopen]
          dsimp only
          rw [rest, hopened _ rfl, blocks, Translator.frames, Block.frame, hopen]
          dsimp only
          cases withContext f (contextUpTo ls) with
          | error e => rfl
          | ok f' => cases Translator.frames origin (blocks ls) <;>
              simp [Except.map, firstHeader?, frames]

/-- **All lines.** A scan of the lines ends with the header and the frames of their blocks. -/
theorem foldlM_step (origin : Option String) (s : Scan) (ls : List Line) :
    (ls.foldlM (step origin) s).map (fun s' => (s'.header, s'.frames)) = s.rest origin ls := by
  induction ls generalizing s with
  | nil => exact (s.rest_nil origin).symm
  | cons l ls ih =>
      rw [List.foldlM_cons, rest_cons]
      cases hstep : s.step origin l with
      | error e => rfl
      | ok s' => exact ih s'

end Scan

/-- **Reading the lines one by one gives the frames of the blocks.** Without a block the whole text
is the diagnostic. -/
theorem read_eq (origin : Option String) (raw : List Char) :
    read origin raw =
      match frames origin (blocks ((Text.lines raw).map Line.read)),
        firstHeader? ((Text.lines raw).map Line.read) with
      | .error e, _ => .error e
      | .ok [], header =>
        .ok (.fallback .translate (textOr "" origin) raw (header.map (String.ofList ·.2)))
      | .ok (f :: fs), header =>
        .ok { kind := (header.map (String.ofList ·.1)).getD Stage.translate.kind
              message := String.ofList ((header.map (·.2)).getD (trim raw))
              frames := f :: fs
              frames_ne_nil := List.cons_ne_nil _ _ } := by
  have hscan := Scan.foldlM_step origin {} ((Text.lines raw).map Line.read)
  rw [read]
  cases hs : ((Text.lines raw).map Line.read).foldlM (Scan.step origin) {} with
  | error e =>
      rw [hs] at hscan
      cases hf : frames origin (blocks ((Text.lines raw).map Line.read)) <;>
        simp_all [Scan.rest, Scan.closed, Except.map]
  | ok s =>
      rw [hs] at hscan
      cases hf : frames origin (blocks ((Text.lines raw).map Line.read)) with
      | error e => simp_all [Scan.rest, Scan.closed, Except.map]
      | ok fs =>
          obtain ⟨hheader, hframes⟩ : s.header = firstHeader? ((Text.lines raw).map Line.read) ∧
              s.frames = fs := by
            simpa [Scan.rest, Scan.closed, hf, Except.map] using hscan
          simp only [Scan.traceback, hframes, hheader]
          cases fs <;> rfl

end SketchBuild.Diagnostic.Translator
