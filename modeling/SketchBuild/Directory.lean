import SketchBuild.Path
import SketchBuild.Text.Str

/-!
# Named directories

A manifest names a directory by a string. A text leads to a path. A torn string is spelled out as if
it did, but there is nothing at the end: no file has a torn name.
-/

namespace SketchBuild

open Text (Piece Str Unencodable chars?_eq_none_iff)

/-- A directory that a string names. -/
inductive Directory
  | named (p : Path)
  | torn (spelling : List Piece) (isTorn : Text.chars? spelling = none)

namespace Directory

/-- The spelling of the path that some pieces name, seen from `dir`. -/
def joinPieces (dir : Path) (ps : List Piece) : List Piece :=
  let names := (Text.fields (· == .char '/') ps).filter fun n => !n.isEmpty && n != [.char '.']
  let start := match (ps.takeWhile (· == .char '/')).length with
    | 0 => Path.toString ⟨dir.anchor, dir.parts ++ [""]⟩
    | 2 => Path.anchorText .doubleSlash
    | _ => Path.anchorText .slash
  start.toList.map .char ++ [.char '/'].intercalate names

theorem exists_field_of_mem {ps : List Piece} {p : Piece} (h : p ∈ ps) (hp : p ≠ .char '/') :
    ∃ n ∈ Text.fields (· == .char '/') ps, p ∈ n := by
  induction ps with
  | nil => cases h
  | cons q ps ih =>
      rw [Text.fields]
      split
      · next hq =>
          have hne : p ≠ q := by
            rintro rfl
            exact hp (by simpa using hq)
          obtain ⟨n, hn, hpn⟩ := ih ((List.mem_cons.mp h).resolve_left hne)
          exact ⟨n, .tail _ hn, hpn⟩
      · cases hfields : Text.fields (· == .char '/') ps with
        | nil =>
            rcases List.mem_cons.mp h with rfl | h
            · exact ⟨[p], .head _, .head _⟩
            · obtain ⟨n, hn, -⟩ := ih h
              rw [hfields] at hn
              cases hn
        | cons f fs =>
            rcases List.mem_cons.mp h with rfl | h
            · exact ⟨p :: f, .head _, .head _⟩
            · obtain ⟨n, hn, hpn⟩ := ih h
              rw [hfields] at hn
              rcases List.mem_cons.mp hn with rfl | hn
              · exact ⟨q :: n, .head _, .tail _ hpn⟩
              · exact ⟨n, .tail _ hn, hpn⟩

/-- A torn name makes a torn spelling. -/
theorem chars?_joinPieces (dir : Path) {ps : List Piece} (h : Text.chars? ps = none) :
    Text.chars? (joinPieces dir ps) = none := by
  obtain ⟨half, hmem⟩ := chars?_eq_none_iff.mp h
  obtain ⟨n, hn, hhalf⟩ := exists_field_of_mem hmem nofun
  have hkept : (!n.isEmpty && n != [.char '.']) = true := by
    cases n with
    | nil => cases hhalf
    | cons p n =>
        have hne : p :: n ≠ [.char '.'] := by
          rintro ⟨⟩
          simp at hhalf
        simp [hne]
  refine chars?_eq_none_iff.mpr ⟨half, List.mem_append_right _ ?_⟩
  exact (Text.mem_intercalate_iff (by simp)).mpr ⟨n, List.mem_filter.mpr ⟨hn, hkept⟩, hhalf⟩

/-- The directory that a string names, seen from `dir`. -/
def ofStr (dir : Path) : Str → Directory
  | .text s => .named (dir.join (.ofString s))
  | .torn ps h => .torn (joinPieces dir ps) (chars?_joinPieces dir h)

/-- The entry `name` of a directory. -/
def child (d : Directory) (name : String) : Directory :=
  match d with
  | .named p => .named (p.child name)
  | .torn ps h => .torn (ps ++ ('/' :: name.toList).map .char) <| by
      obtain ⟨half, hmem⟩ := chars?_eq_none_iff.mp h
      exact chars?_eq_none_iff.mpr ⟨half, List.mem_append_left _ hmem⟩

/-- How a directory is spelled. -/
def spelling : Directory → Str
  | .named p => .text p.toString
  | .torn ps h => .torn ps h

/-- The path of a directory, if it can have one. -/
def path : Directory → Except Unencodable Path
  | .named p => .ok p
  | .torn ps h => .error ((Text.stuck? Text.Half.isByte 0 ps).getD (Str.firstHalves 0 ps h))

end Directory

end SketchBuild
