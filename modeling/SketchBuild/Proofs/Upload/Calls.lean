import SketchBuild.Proofs.Congruence
import SketchBuild.Proofs.Disk.Refusal
import SketchBuild.Proofs.StartRefusal

/-!
# The calls of an upload

An upload starts at most two programs. If there is no port yet, the board tool lists what is
connected; the upload itself is started with the port and the board that were found.
`Uploader.deploy_calls` tells when each of the two is started, how it is called, and what the result
says about it. Whether the directory with the firmware is there should matter for a warning only;
but the system refuses to answer for a path that is too long, and then the upload is not started.
-/

namespace SketchBuild

open SketchBuild.Action SketchBuild.Tool
open Text (Str)

namespace Tool.Response

/-- The program ran to its end, with this exit code and output. -/
def Exited (r : Response) (code : Int) (out err : List UInt8) : Prop :=
  ∃ q, r.outcome = .ok q ∧ q.ending = .exited code out err

variable {r : Response} {code : Int} {out err : List UInt8}

theorem Exited.unique (h : r.Exited code out err) {code' : Int} {out' err' : List UInt8}
    (h' : r.Exited code' out' err') : code' = code ∧ out' = out ∧ err' = err := by
  obtain ⟨q, hq, hend⟩ := h
  obtain ⟨q', hq', hend'⟩ := h'
  cases hq.symm.trans hq'
  cases hend.symm.trans hend'
  exact ⟨rfl, rfl, rfl⟩

theorem not_exited_of_error {e : Refusal} (h : r.outcome = .error e) : ¬ r.Exited code out err := by
  rintro ⟨q, hq, -⟩
  cases h.symm.trans hq

theorem not_exited_of_interrupted {q : Run} (h : r.outcome = .ok q)
    (hend : q.ending = .interrupted) : ¬ r.Exited code out err := by
  rintro ⟨q', hq, hend'⟩
  cases h.symm.trans hq
  cases hend.symm.trans hend'

end Tool.Response

/-- The ways in which a program that is run in the directory of the user ends. -/
theorem Tool.run_ends {i : Invocation} {command : List Str} (hargv : i.argv ≠ [])
    (hcwd : i.cwd = none) (hwords : Str.words command = .ok i.argv) (w : World) :
    ∃ w', Ran w i w' ∧
      ((∃ e, (w.response i).outcome = .error e ∧
          run command none i.merge w = .error (.file ⟨e, .text (i.argv.headD "")⟩) w') ∨
        (∃ q, (w.response i).outcome = .ok q ∧ q.ending = .interrupted ∧
          run command none i.merge w = .error .interrupted w') ∨
        ∃ code out err, (w.response i).Exited code out err ∧
          run command none i.merge w = .ok (.ofStreams i.merge code out err) w') := by
  have hi : i = ⟨i.argv, none, i.merge⟩ := by rw [← hcwd]
  rw [hi]
  rcases run_cases none i.merge w hwords hargv with
    ⟨e, w', hout, hran, hrun⟩ | ⟨q, w', hout, hend, hran, hrun⟩ |
      ⟨q, code, out, err, w', hout, hend, hran, hrun⟩
  · exact ⟨w', hran, .inl ⟨e, hout, hrun⟩⟩
  · exact ⟨w', hran, .inr (.inl ⟨q, hout, hend, hrun⟩)⟩
  · exact ⟨w', hran, .inr (.inr ⟨code, out, err, ⟨q, hout, hend⟩, hrun⟩)⟩

theorem Disk.not_longName_of_all {ns : List String}
    (h : ns.all (·.utf8ByteSize ≤ maxName) = true) : ∀ n ∈ ns, ¬ LongName n := by
  rintro n hn ⟨-, -, hlong⟩
  have hshort : n.utf8ByteSize ≤ maxName := by simpa using List.all_eq_true.mp h n hn
  exact Nat.not_lt_of_le hshort hlong

/-- A path whose names are short is too long only as a whole. -/
theorem Disk.locate_eq_nameTooLong_iff {p : Path} (hnames : ∀ n ∈ p.parts, ¬ LongName n)
    (d : Disk) :
    d.locate p = .error .nameTooLong ↔
      hasNull p.toString = false ∧ maxPath < p.toString.utf8ByteSize := by
  rw [locate, follow]
  split
  · next hnull => simp [hnull]
  · next hnull =>
      split
      · next hlong => simp [hnull, hlong]
      · next hlong =>
          refine iff_of_false (fun h => ?_) fun h => hlong h.2
          rcases walk_eq_error h with h | h | ⟨-, n, hn, hlong'⟩
          · cases h
          · cases h
          · exact hnames n hn hlong'

theorem Tool.isWord_eq_isText {v : Json} (h : isString v = true) : v.isWord = v.isText := by
  cases v with
  | str s => rfl
  | _ => cases h

namespace Upload.Uploader

/-! ## The port in a listing -/

/-- A line of a listing names a port: its first word, if that looks like a serial port. -/
def Names (line : List Char) (port : String) : Prop :=
  (∃ rest, Text.words line = port.toList :: rest) ∧
    ("/dev/".toList <+: port.toList ∨ "COM".toList <+: port.toList)

theorem portIn?_eq_some_iff {line : List Char} {port : String} :
    portIn? line = some port ↔ Names line port := by
  unfold portIn? Names
  cases Text.words line with
  | nil => simp
  | cons word rest =>
      have hmark : portMarks.any (Text.startsWith (String.ofList word) ·) = true ↔
          "/dev/".toList <+: word ∨ "COM".toList <+: word := by
        simp [portMarks, Text.startsWith, List.isPrefixOf_iff_prefix]
      dsimp only
      rw [Option.ite_none_right_eq_some, hmark, Option.some.injEq]
      constructor
      · rintro ⟨h, rfl⟩
        rw [String.toList_ofList]
        exact ⟨⟨rest, rfl⟩, h⟩
      · rintro ⟨⟨rest', hword⟩, h⟩
        cases hword
        exact ⟨h, String.ofList_toList⟩

/-- The port on the first line of a listing that names one. -/
def IsFirstPort (listing port : String) : Prop :=
  ∃ before line after, Text.lines listing.toList = before ++ line :: after ∧ Names line port ∧
    ∀ l ∈ before, ∀ p, ¬ Names l p

theorem firstPort?_eq_some_iff {listing port : String} :
    firstPort? listing = some port ↔ IsFirstPort listing port := by
  have hnone : ∀ line, portIn? line = none ↔ ∀ p, ¬ Names line p := by
    intro line
    simp only [← portIn?_eq_some_iff]
    exact Option.eq_none_iff_forall_ne_some
  simp only [firstPort?, List.findSome?_eq_some_iff, portIn?_eq_some_iff, hnone, IsFirstPort]

/-! ## The port of an upload -/

/-- The call that lists what is connected. -/
def listing (u : Uploader) : Invocation := ⟨[u.binary.display, "board", "list"], none, false⟩

/-- The board tool is asked for a port: none is given, the settings allow it, and the name of the
tool is a text. -/
structure Asks (u : Uploader) (given : Option String) : Prop where
  empty : given.getD "" = ""
  allowed : u.settings.autoDetect.truthy = true
  tool : u.binary.isText = true

/-- The port that an upload uses: the given one, or else the first that the board tool lists. -/
inductive Obtains (u : Uploader) (given : Option String) (w : World) : String → Prop
  | given {port : String} (h : given = some port) (hne : port ≠ "") : Obtains u given w port
  | listed {port : String} {out err : List UInt8} (hasks : u.Asks given)
      (hexit : (w.response u.listing).Exited 0 out err)
      (hport : IsFirstPort (Output.decode out) port) : Obtains u given w port

/-- A board tool whose name is torn is not asked. -/
theorem detect_of_torn {u : Uploader} (h : u.binary.isWord = false) (w : World) :
    ∃ e w', Quiet w w' ∧ u.detect w = .error (.pieces e) w' := by
  obtain ⟨e, hwords⟩ : ∃ e, Str.words [u.binary.toStr, "board", "list"] = .error e :=
    Str.exists_words_error List.mem_cons_self h
  obtain ⟨w', hq, hrun⟩ := Tool.run_of_torn hwords none false w
  exact ⟨e, w', hq, bind_of_error hrun⟩

section Detect

variable {u : Uploader} (htool : u.binary.isWord = true) (w : World)

include htool

/-- How the question for a port ends. -/
theorem detect_cases :
    ∃ w', Ran w u.listing w' ∧
      ((∃ r, (w.response u.listing).outcome = .error r ∧
          u.detect w = .error (.file ⟨r, .text u.binary.display⟩) w') ∨
        (∃ q, (w.response u.listing).outcome = .ok q ∧ q.ending = .interrupted ∧
          u.detect w = .error .interrupted w') ∨
        (∃ code out err, (w.response u.listing).Exited code out err ∧ code ≠ 0 ∧
          u.detect w = .error (.upload (.listingFailed (Text.strip (Output.decode err)))) w') ∨
        ∃ out err, (w.response u.listing).Exited 0 out err ∧
          u.detect w = .ok (firstPort? (Output.decode out)) w') := by
  have hwords : Str.words [u.binary.toStr, "board", "list"] = .ok u.listing.argv := by
    rw [Json.toStr_of_isWord htool]
    rfl
  obtain ⟨w', hran, hrun⟩ := Tool.run_ends (i := u.listing) (by simp [listing]) rfl hwords w
  refine ⟨w', hran, ?_⟩
  rcases hrun with ⟨e, hout, hrun⟩ | ⟨q, hout, hend, hrun⟩ | ⟨code, out, err, hexit, hrun⟩
  · exact .inl ⟨e, hout, bind_of_error hrun⟩
  · exact .inr (.inl ⟨q, hout, hend, bind_of_error hrun⟩)
  · refine .inr (.inr ?_)
    by_cases hcode : code = 0
    · subst hcode
      exact .inr ⟨out, err, hexit, bind_of_ok hrun⟩
    · refine .inl ⟨code, out, err, hexit, hcode, (bind_of_ok hrun).trans ?_⟩
      have hfail : (!(Output.ofStreams false code out err).success) = true := by
        simp [Output.ofStreams, Output.success, hcode]
      exact congrFun (if_pos hfail) w'

/-- The port that the board tool lists is found, or else the question fails or finds none. -/
theorem detect_finds :
    ∃ found w', Ran w u.listing w' ∧
      (∀ port, (∃ out err, (w.response u.listing).Exited 0 out err ∧
        IsFirstPort (Output.decode out) port) ↔ found = some port) ∧
      (u.detect w = .ok found w' ∨ found = none ∧ ∃ f, u.detect w = .error f w') := by
  obtain ⟨w', hran, hcases⟩ := detect_cases htool w
  -- a tool that did not exit with 0 has listed nothing
  have hnone : (∀ out err, ¬ (w.response u.listing).Exited 0 out err) → ∀ port,
      (∃ out err, (w.response u.listing).Exited 0 out err ∧
        IsFirstPort (Output.decode out) port) ↔ (none : Option String) = some port := by
    intro hexit port
    refine iff_of_false ?_ (by simp)
    rintro ⟨out, err, h, -⟩
    exact hexit out err h
  rcases hcases with ⟨r, hout, hrun⟩ | ⟨q, hout, hend, hrun⟩ |
    ⟨code, out, err, hexit, hcode, hrun⟩ | ⟨out, err, hexit, hrun⟩
  · exact ⟨none, w', hran, hnone fun _ _ => Response.not_exited_of_error hout,
      .inr ⟨rfl, _, hrun⟩⟩
  · exact ⟨none, w', hran, hnone fun _ _ => Response.not_exited_of_interrupted hout hend,
      .inr ⟨rfl, _, hrun⟩⟩
  · exact ⟨none, w', hran, hnone fun _ _ h => hcode (h.unique hexit).1, .inr ⟨rfl, _, hrun⟩⟩
  · refine ⟨_, w', hran, fun port => ?_, .inl hrun⟩
    rw [firstPort?_eq_some_iff]
    constructor
    · rintro ⟨out', err', h, hport⟩
      rwa [(hexit.unique h).2.1] at hport
    · intro hport
      exact ⟨out, err, hexit, hport⟩

end Detect

theorem portFor_of_given (u : Uploader) {port : String} (hne : port ≠ "") :
    u.portFor (some port) = pure port := by
  have hfull : (!((some port).getD "").isEmpty) = true := by simpa using hne
  rw [portFor, if_pos hfull]
  rfl

theorem portFor_of_not_allowed {u : Uploader} {given : Option String}
    (hempty : given.getD "" = "") (h : u.settings.autoDetect.truthy = false) :
    u.portFor given = throw (.upload .noPort) := by
  rw [portFor, hempty, if_neg (by simp), if_pos (by simp [h])]
  rfl

/-- If the board tool is to be asked, its answer decides. -/
theorem portFor_of_allowed {u : Uploader} {given : Option String} (hempty : given.getD "" = "")
    (h : u.settings.autoDetect.truthy = true) (w : World) :
    ∃ w₁, Quiet w w₁ ∧
      (∀ f w', u.detect w₁ = .error f w' → u.portFor given w = .error f w') ∧
      (∀ w', u.detect w₁ = .ok none w' →
        u.portFor given w = .error (.upload .noBoardDetected) w') ∧
      ∀ port w', u.detect w₁ = .ok (some port) w' →
        ∃ w'', Quiet w' w'' ∧ u.portFor given w = .ok port w'' := by
  have hauto : ¬ (!u.settings.autoDetect.truthy) = true := by simp [h]
  rw [portFor, hempty, if_neg (by simp), if_neg hauto]
  obtain ⟨w₁, hquiet, hrun⟩ :=
    (Shows.print "Auto-detecting board on serial ports...").bind_apply _ w
  refine ⟨w₁, hquiet, fun f w' hd => ?_, fun w' hd => ?_, fun port w' hd => ?_⟩
  · exact hrun.trans (bind_of_error hd)
  · exact hrun.trans (bind_of_ok hd)
  · obtain ⟨w'', hquiet', hrun'⟩ := (Shows.print s!"Found board on {port}").bind_apply
      (fun _ => (pure port : Action String)) w'
    exact ⟨w'', hquiet', hrun.trans ((bind_of_ok hd).trans hrun')⟩

/-- The port is obtained, or else the upload stops, and the board tool was started if it was
asked. -/
structure PortCalls (u : Uploader) (given : Option String) (w w' : World) (listed : Option Start)
    (found : Option String) : Prop where
  trail : Trail w w' listed.toList
  listed_iff : listed.isSome = true ↔ u.Asks given
  listed_eq : ∀ s ∈ listed, s.invocation = u.listing
  obtains_iff : ∀ port, u.Obtains given w port ↔ found = some port
  ends : (∃ port, found = some port ∧ u.portFor given w = .ok port w') ∨
    found = none ∧ ∃ f, u.portFor given w = .error f w'

theorem portCalls_of_asks {u : Uploader} {given : Option String} (h : u.Asks given) (w : World) :
    ∃ found w', PortCalls u given w w' (some ⟨u.listing, w.disk⟩) found := by
  obtain ⟨w₁, hquiet, herror, hnone, hsome⟩ := portFor_of_allowed h.empty h.allowed w
  obtain ⟨found, w', hran, hfound, hrun⟩ :=
    detect_finds (Json.isWord_of_isText h.tool) w₁
  rw [hquiet.response] at hfound
  have hobtains : ∀ port, u.Obtains given w port ↔ found = some port := by
    intro port
    rw [← hfound]
    constructor
    · rintro (⟨rfl, hne⟩ | ⟨-, hexit, hport⟩)
      · exact absurd h.empty hne
      · exact ⟨_, _, hexit, hport⟩
    · rintro ⟨out, err, hexit, hport⟩
      exact .listed h hexit hport
  have htrail : ∀ w'', Quiet w' w'' → Trail w w'' [⟨u.listing, w.disk⟩] :=
    fun w'' hquiet' => (hran.of_quiet hquiet hquiet').trail
  have hcalls : ∀ w'', Quiet w' w'' →
      ((∃ port, found = some port ∧ u.portFor given w = .ok port w'') ∨
        found = none ∧ ∃ f, u.portFor given w = .error f w'') →
      ∃ found w', PortCalls u given w w' (some ⟨u.listing, w.disk⟩) found :=
    fun w'' hquiet' hends =>
      ⟨found, w'', htrail w'' hquiet', iff_of_true rfl h, by simp, hobtains, hends⟩
  rcases hrun with hrun | ⟨hnot, f, hrun⟩
  · cases found with
    | none => exact hcalls w' (.refl w') (.inr ⟨rfl, _, hnone w' hrun⟩)
    | some port =>
        obtain ⟨w'', hquiet', hport⟩ := hsome port w' hrun
        exact hcalls w'' hquiet' (.inl ⟨port, rfl, hport⟩)
  · exact hcalls w' (.refl w') (.inr ⟨hnot, f, herror f w' hrun⟩)

/-- If a port is looked for and the board tool cannot be asked, then there is none. -/
theorem portFor_of_not_asks {u : Uploader} (htool : Tool.isString u.binary = true)
    {given : Option String} (hempty : given.getD "" = "") (h : ¬ u.Asks given) (w : World) :
    ∃ f w', Quiet w w' ∧ u.portFor given w = .error f w' := by
  cases hauto : u.settings.autoDetect.truthy with
  | false => exact ⟨_, w, .refl w, congrFun (portFor_of_not_allowed hempty hauto) w⟩
  | true =>
      have htorn : u.binary.isWord = false := by
        rw [isWord_eq_isText htool, ← Bool.not_eq_true]
        exact fun htext => h ⟨hempty, hauto, htext⟩
      obtain ⟨w₁, hq₁, herror, -⟩ := portFor_of_allowed hempty hauto w
      obtain ⟨e, w', hq', hdetect⟩ := detect_of_torn htorn w₁
      exact ⟨.pieces e, w', hq₁.trans hq', herror _ w' hdetect⟩

theorem exists_portCalls {u : Uploader} (htool : Tool.isString u.binary = true)
    (given : Option String) (w : World) :
    ∃ listed found w', PortCalls u given w w' listed found := by
  by_cases hasks : u.Asks given
  · exact ⟨_, portCalls_of_asks hasks w⟩
  · have hstart : (none : Option Start).isSome = true ↔ u.Asks given := by simpa using hasks
    by_cases hempty : given.getD "" = ""
    · obtain ⟨f, w', hq, hport⟩ := portFor_of_not_asks htool hempty hasks w
      refine ⟨none, none, w', hq.trail, hstart, by simp, fun port => ?_, .inr ⟨rfl, f, hport⟩⟩
      refine iff_of_false ?_ (by simp)
      rintro (⟨rfl, hne⟩ | ⟨h, -, -⟩)
      · exact hne hempty
      · exact hasks h
    · obtain ⟨port, rfl⟩ : ∃ port, given = some port := by
        cases given with
        | none => exact absurd rfl hempty
        | some port => exact ⟨port, rfl⟩
      refine ⟨none, some port, w, .refl w, hstart, by simp, fun port' => ?_,
        .inl ⟨port, rfl, ?_⟩⟩
      · constructor
        · rintro (⟨h, -⟩ | ⟨h, -, -⟩)
          · exact h
          · exact absurd h hasks
        · intro h
          cases h
          exact .given rfl hempty
      · exact congrFun (portFor_of_given u hempty) w

/-! ## The board of an upload -/

/-- The board that an upload is for: that of the options, else that of the manifest, else that of
the settings. -/
inductive Chooses (u : Uploader) (o : Options) : String → Prop
  | requested {id : String} (h : o.board = some id) (hne : id ≠ "") : Chooses u o id
  | ofManifest {id : String} (hnone : o.board.getD "" = "") (h : o.manifest.board = .text id)
      (hne : id ≠ "") : Chooses u o id
  | ofSettings {id : String} (hnone : o.board.getD "" = "")
      (hempty : o.manifest.board.isEmpty = true) (h : u.settings.defaultBoard = .text id) :
      Chooses u o id

theorem boardOf_eq_text_iff {u : Uploader} {o : Options} {id : String} :
    Build.boardOf o.board o.manifest u.settings = .text id ↔ u.Chooses o id := by
  rw [Build.boardOf, Json.orElse, Json.orElse]
  by_cases hnone : o.board.getD "" = ""
  · have hreq : ¬ (Json.text (o.board.getD "")).truthy = true := by
      simp [hnone, Json.truthy, Text.Str.isEmpty]
    have hno : ∀ id, o.board = some id → ¬ id ≠ "" := by
      rintro id h
      rw [h] at hnone
      exact not_not_intro hnone
    rw [if_neg hreq]
    cases hempty : o.manifest.board.isEmpty with
    | true =>
        rw [if_neg (by simp [Json.truthy, hempty])]
        constructor
        · exact .ofSettings hnone hempty
        · rintro (⟨h, hne⟩ | ⟨-, h, hne⟩ | ⟨-, -, h⟩)
          · exact absurd hne (hno id h)
          · rw [h] at hempty
            exact absurd (by simpa [Text.Str.isEmpty] using hempty) hne
          · exact h
    | false =>
        rw [if_pos (by simp [Json.truthy, hempty])]
        constructor
        · intro h
          have hboard : o.manifest.board = .text id := by simpa [Json.text] using h
          refine .ofManifest hnone hboard ?_
          rw [hboard] at hempty
          simpa [Text.Str.isEmpty] using hempty
        · rintro (⟨h, hne⟩ | ⟨-, h, -⟩ | ⟨-, h, -⟩)
          · exact absurd hne (hno id h)
          · rw [h]
            rfl
          · cases hempty.symm.trans h
  · obtain ⟨id', hid⟩ : ∃ id', o.board = some id' := by
      cases h : o.board with
      | none => exact absurd (by rw [h]; rfl) hnone
      | some id' => exact ⟨id', rfl⟩
    rw [hid] at hnone
    have hne : id' ≠ "" := hnone
    rw [hid, if_pos (by simpa [Json.truthy, Text.Str.isEmpty] using hne)]
    constructor
    · intro h
      have hsame : id' = id := by simpa [Json.text] using h
      exact .requested (hid.trans (congrArg some hsame)) (hsame ▸ hne)
    · rintro (⟨h, -⟩ | ⟨h, -, -⟩ | ⟨h, -, -⟩)
      · cases hid.symm.trans h
        rfl
      · rw [hid] at h
        exact absurd h hnone
      · rw [hid] at h
        exact absurd h hnone

/-- The board is in the catalog. -/
def Knows (u : Uploader) (o : Options) (board : Board) : Prop :=
  ∃ id, u.Chooses o id ∧ Board.find? id = some board

theorem boardOf?_finds (v : Json) (w : World) :
    ∃ found, (∀ board, (∃ id, v = .text id ∧ Board.find? id = some board) ↔ found = some board) ∧
      (boardOf? v w = .ok found w ∨ found = none ∧ ∃ f, boardOf? v w = .error f w) := by
  have hempty : Board.find? "" = none := by decide
  by_cases htext : ∃ s, v = .str s
  · obtain ⟨s, rfl⟩ := htext
    cases s with
    | text id => exact ⟨Board.find? id, fun board => by simp [Json.text], .inl rfl⟩
    | torn ps => exact ⟨none, fun board => by simp [Json.text], .inl rfl⟩
  · refine ⟨none, fun board => iff_of_false ?_ (by simp), ?_⟩
    · rintro ⟨id, rfl, -⟩
      exact htext ⟨_, rfl⟩
    · unfold boardOf?
      split
      · exact absurd ⟨_, rfl⟩ htext
      · split
        · exact .inr ⟨rfl, _, rfl⟩
        · rw [hempty]
          exact .inl rfl

/-! ## The directory with the firmware -/

/-- The directory that holds the firmware, if its name is a text. -/
def firmwareDir (o : Options) : Path :=
  o.buildDir.getD
    ((o.projectDir.join (.ofString o.manifest.build.outputDir.display)).child Build.cacheName)

/-- The directory is given, or the manifest names it by a text. -/
def IsNamed (o : Options) : Prop :=
  o.buildDir.isSome = true ∨ o.manifest.build.outputDir.isText = true

theorem buildDir_of_isNamed {o : Options} (h : IsNamed o) :
    buildDir o = pure (.named (firmwareDir o)) := by
  unfold buildDir firmwareDir
  cases hgiven : o.buildDir with
  | some dir => rfl
  | none =>
      have htext : o.manifest.build.outputDir.isText = true := by simpa [IsNamed, hgiven] using h
      cases hout : o.manifest.build.outputDir with
      | str s =>
          cases s with
          | text name => rfl
          | torn ps hps => simp [hout, Json.isText] at htext
      | _ => simp [hout, Json.isText] at htext

/-- A string that is no text names a directory that is not there. -/
theorem buildDir_of_not_isNamed {o : Options}
    (hstring : Tool.isString o.manifest.build.outputDir = true) (h : ¬ IsNamed o) :
    ∃ ps hps, buildDir o = pure (.torn ps hps) := by
  rw [IsNamed, not_or, Bool.not_eq_true, Bool.not_eq_true, Option.isSome_eq_false_iff,
    Option.isNone_iff_eq_none] at h
  unfold buildDir
  rw [h.1]
  cases hout : o.manifest.build.outputDir with
  | str s =>
      cases s with
      | text name => simp [hout, Json.isText] at h
      | torn ps hps => exact ⟨_, _, rfl⟩
  | _ => simp [hout, Tool.isString] at hstring

/-- The path of the directory is too long for the system. -/
structure Overlong (o : Options) : Prop where
  noNull : Disk.hasNull (firmwareDir o).toString = false
  long : Disk.maxPath < (firmwareDir o).toString.utf8ByteSize

section Directory

variable {o : Options} (hnames : ∀ n ∈ (firmwareDir o).parts, ¬ Disk.LongName n) (w : World)
include hnames

theorem isThere_of_overlong (h : Overlong o) :
    (Directory.named (firmwareDir o)).isThere w =
      .error (.file (.on .nameTooLong (firmwareDir o))) w := by
  have hlong := (Disk.locate_eq_nameTooLong_iff hnames w.disk).mpr ⟨h.noNull, h.long⟩
  have hask : w.disk.exists? (firmwareDir o) = .error (.on .nameTooLong (firmwareDir o)) :=
    Disk.ask_eq_error_iff.mpr ⟨hlong, rfl⟩
  rw [Directory.isThere, ask_of_error hask]

/-- If no name is too long, then only an overlong path is refused. -/
theorem exists_isThere (h : ¬ Overlong o) :
    ∃ b, (Directory.named (firmwareDir o)).isThere w = .ok b w := by
  cases hask : w.disk.exists? (firmwareDir o) with
  | ok b => exact ⟨b, by rw [Directory.isThere, ask_of_ok hask]⟩
  | error e =>
      obtain ⟨hnull, hsize⟩ := (Disk.locate_eq_nameTooLong_iff hnames w.disk).mp
        (Disk.ask_eq_error_iff.mp hask).1
      exact absurd ⟨hnull, hsize⟩ h

end Directory

/-- What the firmware is sent with can be told to the system: the names of the board tool and the
directory are texts, and the path of the directory is not too long. -/
structure Sendable (u : Uploader) (o : Options) : Prop where
  tool : u.binary.isText = true
  named : IsNamed o
  short : ¬ Overlong o

/-! ## Sending -/

/-- The call that uploads a directory to a board on a port. -/
def uploading (u : Uploader) (fqbn port : String) (dir : Path) : Invocation where
  argv := [u.binary.display, "upload", "--fqbn", fqbn, "--port", port, "--input-dir",
    dir.toString] ++ if u.verbose then ["--verbose"] else []
  cwd := none
  merge := true

theorem map_display_command (u : Uploader) (fqbn port : String) (dir : Path) :
    (u.command fqbn port (.named dir)).map Json.display = (u.uploading fqbn port dir).argv := by
  unfold command uploading
  cases u.verbose <;> rfl

/-- A torn word is refused by the console, if the command is to be shown, and by the system
otherwise. -/
theorem send_of_torn {u : Uploader} {dir : Directory} (htool : Tool.isString u.binary = true)
    (h : u.binary.isText = false ∨ dir.spelling.isText = false) (fqbn port : String) (w : World) :
    ∃ f w', Quiet w w' ∧ u.send fqbn port dir w = .error f w' := by
  obtain ⟨v, hmem, hv, htext⟩ : ∃ v ∈ u.command fqbn port dir,
      v.isWord = false ∧ v.isText = false := by
    rcases h with h | h
    · exact ⟨u.binary, by simp [command], (isWord_eq_isText htool).trans h, h⟩
    · exact ⟨.str dir.spelling, by simp [command], h, h⟩
  obtain ⟨e, hwords⟩ := Json.exists_words_error hmem hv
  unfold send
  dsimp only
  cases u.verbose with
  | true =>
      rw [if_pos rfl]
      rcases Tool.spell_of_not_isText hmem htext with ⟨e, hspell⟩ | ⟨line, hline, hspell, -⟩
      · rw [hspell]
        exact ⟨_, w, .refl w, rfl⟩
      · have htorn : ("Running: " ++ line : Str).isText = false := by simp [hline]
        obtain ⟨e, hprint⟩ := printStr_of_torn htorn
        rw [hspell, pure_bind, hprint]
        exact ⟨_, w, .refl w, rfl⟩
  | false =>
      rw [if_neg (by simp)]
      obtain ⟨w₁, hq₁, hrun₁⟩ :=
        (Shows.log .info ("Uploading " ++ dir.spelling ++ s!" to {port} [{fqbn}]")).bind_apply _ w
      obtain ⟨w₂, hq₂, hrun₂⟩ := Tool.run_of_torn hwords none true w₁
      exact ⟨_, w₂, hq₁.trans hq₂, hrun₁.trans (bind_of_error hrun₂)⟩

theorem file_of_normalize (port : String) (out : String) :
    ∃ t, Diagnostic.normalize .upload (some port) out = .ok t ∧
      t.frames.map (·.file) = [port] := by
  have hport : Diagnostic.textOr "" (some port) = port := by
    show (if port.isEmpty then "" else port) = port
    split
    · next h => exact (String.isEmpty_iff.mp h).symm
    · rfl
  refine ⟨_, rfl, ?_⟩
  unfold Diagnostic.Uploader.read
  dsimp only
  split
  · exact congrArg (fun port => [port]) hport
  · exact congrArg (fun port => [port]) hport

/-- A result tells whether the upload succeeded, and where it failed. -/
structure Concludes (port : String) (code : Int) (result : Result) : Prop where
  success_iff : result.success = true ↔ code = 0
  traceback : code ≠ 0 → ∃ t, result.traceback = some t ∧ t.frames.map (·.file) = [port]

theorem conclude_apply (port : String) (code : Int) (out err : List UInt8) (w : World) :
    ∃ result, conclude port (.ofStreams true code out err) w = .ok result w ∧
      Concludes port code result := by
  unfold conclude
  by_cases hcode : code = 0
  · refine ⟨_, congrFun (if_neg ?_) w, by simp [hcode], fun h => absurd hcode h⟩
    simp [Output.ofStreams, Output.success, hcode]
  · obtain ⟨t, ht, hfile⟩ := file_of_normalize port (Output.ofStreams true code out err).stdout
    have hfail : (!(Output.ofStreams true code out err).success) = true := by
      simp [Output.ofStreams, Output.success, hcode]
    rw [if_pos hfail, ht]
    exact ⟨_, rfl, by simp [hcode], fun _ => ⟨t, rfl, hfile⟩⟩

/-- How the upload itself ends. -/
theorem send_cases {u : Uploader} (hbinary : u.binary.isText = true) (fqbn port : String)
    (dir : Path) (w : World) :
    let r := w.response (u.uploading fqbn port dir)
    ∃ w', Ran w (u.uploading fqbn port dir) w' ∧
      ((∃ f, (∀ code out err, ¬ r.Exited code out err) ∧
          u.send fqbn port (.named dir) w = .error f w') ∨
        ∃ code out err result, r.Exited code out err ∧
          u.send fqbn port (.named dir) w = .ok result w' ∧ Concludes port code result) := by
  intro r
  have htexts : ∀ v ∈ u.command fqbn port (.named dir), v.isText = true :=
    isText_of_mem_command hbinary rfl
  obtain ⟨line, hspell⟩ := spell_of_isText htexts
  -- what is shown before changes nothing
  obtain ⟨w₁, hquiet, hsend⟩ : ∃ w₁, Quiet w w₁ ∧ u.send fqbn port (.named dir) w =
      (Tool.run ((u.command fqbn port (.named dir)).map Json.toStr) none true >>=
        conclude port) w₁ := by
    unfold send
    dsimp only
    obtain ⟨w₁, hq₁, h₁⟩ :=
      (Shows.print ("Running: " ++ line)).ite_bind_apply (u.verbose = true) _ w
    obtain ⟨w₂, hq₂, h₂⟩ := (Shows.log .info
      ("Uploading " ++ (Directory.named dir).spelling ++ s!" to {port} [{fqbn}]")).bind_apply _ w₁
    rw [hspell, pure_bind]
    exact ⟨w₂, hq₁.trans hq₂, h₁.trans h₂⟩
  rw [hsend]
  have hwords := (Json.words_toStr fun v hv => Json.isWord_of_isText (htexts v hv)).trans
    (congrArg _ (u.map_display_command fqbn port dir))
  obtain ⟨w', hran, hrun⟩ :=
    Tool.run_ends (i := u.uploading fqbn port dir) (by simp [uploading]) rfl hwords w₁
  rw [hquiet.response] at hrun
  refine ⟨w', hran.of_quiet hquiet (.refl w'), ?_⟩
  rcases hrun with ⟨e, hout, hrun⟩ | ⟨q, hout, hend, hrun⟩ | ⟨code, out, err, hexit, hrun⟩
  · exact .inl ⟨_, fun _ _ _ => Response.not_exited_of_error hout, bind_of_error hrun⟩
  · exact .inl ⟨_, fun _ _ _ => Response.not_exited_of_interrupted hout hend, bind_of_error hrun⟩
  · obtain ⟨result, hresult, hconcludes⟩ := conclude_apply port code out err w'
    exact .inr ⟨code, out, err, result, hexit, (bind_of_ok hrun).trans hresult, hconcludes⟩

/-! ## The whole upload -/

/-- The programs that an upload starts: the listing and the upload, each at most once. -/
structure Calls (u : Uploader) (o : Options) (w w' : World) (listed uploaded : Option Start) :
    Prop where
  trail : Trail w w' (listed.toList ++ uploaded.toList)
  listed_iff : listed.isSome = true ↔ u.Asks o.port
  listed_eq : ∀ s ∈ listed, s.invocation = u.listing
  uploaded_iff : uploaded.isSome = true ↔
    (∃ port, u.Obtains o.port w port) ∧ (∃ board, u.Knows o board) ∧ u.Sendable o
  uploaded_eq : ∀ s ∈ uploaded, ∀ port board, u.Obtains o.port w port → u.Knows o board →
    s.invocation = u.uploading board.fqbn port (firmwareDir o)

/-- What a result says about the programs that were started. -/
structure Tells (u : Uploader) (o : Options) (w : World) (listed uploaded : Option Start)
    (result : Result) : Prop where
  success_iff : result.success = true ↔
    ∃ s ∈ uploaded, ∃ out err, (s.response w.tools (w.past ++ listed.toList)).Exited 0 out err
  traceback : ∀ s ∈ uploaded, ∀ code out err,
    (s.response w.tools (w.past ++ listed.toList)).Exited code out err → code ≠ 0 →
      ∀ port, u.Obtains o.port w port →
        ∃ t, result.traceback = some t ∧ t.frames.map (·.file) = [port]

/-- Whatever is made of a fault, it is no success. -/
theorem success_of_reported {u : Uploader} {f : Fault} {result : Result}
    (h : u.reported f = .ok result) : result.success = false := by
  unfold reported at h
  split at h
  · cases h
    rfl
  · cases h
    rfl
  · cases h

theorem Tells.of_failure {u : Uploader} {o : Options} {w : World} {listed uploaded : Option Start}
    {result : Result} (h : result.success = false)
    (hexit : ∀ s ∈ uploaded, ∀ code out err,
      ¬ (s.response w.tools (w.past ++ listed.toList)).Exited code out err) :
    Tells u o w listed uploaded result where
  success_iff := by
    refine iff_of_false (by simp [h]) ?_
    rintro ⟨s, hs, out, err, hs'⟩
    exact hexit s hs 0 out err hs'
  traceback s hs code out err hs' := absurd hs' (hexit s hs code out err)

theorem Tells.of_exited {u : Uploader} {o : Options} {w : World} {listed : Option Start} {s : Start}
    {port : String} {code : Int} {out err : List UInt8} {result : Result}
    (hexit : (s.response w.tools (w.past ++ listed.toList)).Exited code out err)
    (hobtains : ∀ port', u.Obtains o.port w port' → port' = port)
    (h : Concludes port code result) : Tells u o w listed (some s) result where
  success_iff := by
    rw [h.success_iff]
    constructor
    · rintro rfl
      exact ⟨s, rfl, out, err, hexit⟩
    · rintro ⟨s', hs, out', err', hexit'⟩
      cases hs
      exact (hexit'.unique hexit).1
  traceback s' hs code' out' err' hexit' hcode port' hport := by
    cases hs
    rw [(hexit.unique hexit').1] at hcode
    rw [hobtains port' hport]
    exact h.traceback hcode

/-- The programs that an upload starts, and how it ends by them. -/
structure Account (u : Uploader) (o : Options) (w : World) (listed uploaded : Option Start) :
    Prop where
  calls : Calls u o w ((u.upload o).after w) listed uploaded
  tells : ∀ result w', u.upload o w = .ok result w' → Tells u o w listed uploaded result
  stops : ∀ f w', u.upload o w = .error f w' → ∀ s ∈ uploaded, ∀ code out err,
    ¬ (s.response w.tools (w.past ++ listed.toList)).Exited code out err

/-- An upload that sends the firmware. -/
theorem account_of_send {u : Uploader} {o : Options} {w w₁ w₂ : World} {listed : Option Start}
    {found : Option String} {port : String} {board : Board} (hsendable : u.Sendable o)
    (hcalls : PortCalls u o.port w w₁ listed found) (hquiet : Quiet w₁ w₂)
    (hobtains : ∀ port', u.Obtains o.port w port' ↔ port' = port)
    (hknows : ∀ board', u.Knows o board' ↔ board' = board)
    (hrun : u.upload o w = u.send board.fqbn port (.named (firmwareDir o)) w₂) :
    Account u o w listed (some ⟨u.uploading board.fqbn port (firmwareDir o), w₂.disk⟩) := by
  obtain ⟨w', hran, hsend⟩ := send_cases hsendable.tool board.fqbn port (firmwareDir o) w₂
  -- the upload is the first program after the listing
  have htrail : Trail w w₂ listed.toList := hcalls.trail.trans_silent hquiet.trail
  have hresp : Start.response ⟨u.uploading board.fqbn port (firmwareDir o), w₂.disk⟩ w.tools
      (w.past ++ listed.toList) = w₂.response (u.uploading board.fqbn port (firmwareDir o)) := by
    rw [World.response, htrail.tools, htrail.past]
  rw [← hresp] at hsend
  have hpass : (u.upload o).after w = w' := by
    rcases hsend with ⟨f, -, hsend⟩ | ⟨code, out, err, result, -, hsend, -⟩
    · exact after_of_error (hrun.trans hsend)
    · exact after_of_ok (hrun.trans hsend)
  refine ⟨⟨?_, hcalls.listed_iff, hcalls.listed_eq, ?_, ?_⟩, ?_, ?_⟩
  · rw [hpass]
    exact htrail.trans hran.trail
  · exact iff_of_true rfl ⟨⟨port, (hobtains port).mpr rfl⟩, ⟨board, (hknows board).mpr rfl⟩,
      hsendable⟩
  · rintro s hs port' board' hport hboard
    cases hs
    cases (hobtains port').mp hport
    cases (hknows board').mp hboard
    rfl
  · intro result w'' hok
    rw [hrun] at hok
    rcases hsend with ⟨f, -, hsend⟩ | ⟨code, out, err, result', hexit, hsend, hconcludes⟩
    · cases hsend.symm.trans hok
    · cases hsend.symm.trans hok
      exact .of_exited hexit (fun port' h => (hobtains port').mp h) hconcludes
  · rintro f w'' herr s hs code out err
    cases hs
    rw [hrun] at herr
    rcases hsend with ⟨f, hexit, -⟩ | ⟨code, out, err, result, -, hsend, -⟩
    · exact hexit code out err
    · cases hsend.symm.trans herr

section Whole

variable {u : Uploader} {o : Options}
  (hdir : Tool.isString o.manifest.build.outputDir = true)
  (hnames : ∀ n ∈ (firmwareDir o).parts, ¬ Disk.LongName n)
  (hbinary : Tool.isString u.binary = true)

include hdir hnames hbinary

/-- With a port and a board, the names of the board tool and the directory decide whether the
firmware is sent. -/
theorem upload_sends {w w₁ : World} {port : String} {board : Board}
    (hport : u.portFor o.port w = .ok port w₁)
    (hboard : boardOf? (Build.boardOf o.board o.manifest u.settings) w₁ = .ok (some board) w₁) :
    (∃ f w₂, Quiet w₁ w₂ ∧ u.upload o w = .error f w₂ ∧ ¬ u.Sendable o) ∨
      ∃ w₂, Quiet w₁ w₂ ∧ u.Sendable o ∧
        u.upload o w = u.send board.fqbn port (.named (firmwareDir o)) w₂ := by
  -- the directory is asked for, and a warning is logged if it is not there
  have hupload : ∀ {dir b}, buildDir o = pure dir → dir.isThere w₁ = .ok b w₁ →
      ∃ w₂, Quiet w₁ w₂ ∧ u.upload o w = u.send board.fqbn port dir w₂ := by
    intro dir b hd hthere
    obtain ⟨w₂, hquiet, hlog⟩ := (Shows.log .warning
      ("Build directory " ++ dir.spelling ++ " does not exist")).ite_bind_apply ((!b) = true)
        (fun _ => u.send board.fqbn port dir) w₁
    refine ⟨w₂, hquiet, ?_⟩
    unfold upload
    rw [hd, pure_bind, bind_of_ok hport]
    exact (bind_of_ok hboard).trans ((bind_of_ok hthere).trans hlog)
  by_cases hnamed : IsNamed o
  case neg =>
    obtain ⟨ps, hps, hd⟩ := buildDir_of_not_isNamed hdir hnamed
    obtain ⟨w₂, hquiet, hrun⟩ := hupload hd rfl
    have htorn : (Directory.torn ps hps).spelling.isText = false := rfl
    obtain ⟨f, w₃, hquiet', hsend⟩ := send_of_torn hbinary (.inr htorn) board.fqbn port w₂
    exact .inl ⟨f, w₃, hquiet.trans hquiet', hrun.trans hsend, fun h => hnamed h.named⟩
  have hd := buildDir_of_isNamed hnamed
  by_cases hlong : Overlong o
  · have hthere := isThere_of_overlong hnames w₁ hlong
    have hrun : u.upload o w = .error (.file (.on .nameTooLong (firmwareDir o))) w₁ := by
      unfold upload
      rw [hd, pure_bind, bind_of_ok hport]
      exact (bind_of_ok hboard).trans (bind_of_error hthere)
    exact .inl ⟨_, w₁, .refl w₁, hrun, fun h => h.short hlong⟩
  obtain ⟨b, hthere⟩ := exists_isThere hnames w₁ hlong
  obtain ⟨w₂, hquiet, hrun⟩ := hupload hd hthere
  cases htool : u.binary.isText with
  | true => exact .inr ⟨w₂, hquiet, ⟨htool, hnamed, hlong⟩, hrun⟩
  | false =>
      obtain ⟨f, w₃, hquiet', hsend⟩ := send_of_torn hbinary (.inl htool) board.fqbn port w₂
      refine .inl ⟨f, w₃, hquiet.trans hquiet', hrun.trans hsend, fun h => ?_⟩
      cases htool.symm.trans h.tool

/-- The programs of an upload, and how it ends by them. -/
theorem exists_account (w : World) : ∃ listed uploaded, Account u o w listed uploaded := by
  obtain ⟨listed, found, w₁, hcalls⟩ := exists_portCalls hbinary o.port w
  -- an upload that stops here has started no program beside the listing
  have hstops : ∀ f w₂, Quiet w₁ w₂ → u.upload o w = .error f w₂ →
      ¬ ((∃ port, u.Obtains o.port w port) ∧ (∃ board, u.Knows o board) ∧ u.Sendable o) →
      ∃ listed uploaded, Account u o w listed uploaded := by
    intro f w₂ hquiet hrun hnot
    refine ⟨listed, none, ⟨?_, hcalls.listed_iff, hcalls.listed_eq, by simpa using hnot, by simp⟩,
      ?_, by simp⟩
    · rw [after_of_error hrun]
      simpa using hcalls.trail.trans_silent hquiet.trail
    · intro result w' hok
      cases hrun.symm.trans hok
  obtain ⟨dir, hd⟩ : ∃ dir, buildDir o = pure dir := by
    by_cases hnamed : IsNamed o
    · exact ⟨_, buildDir_of_isNamed hnamed⟩
    · obtain ⟨ps, hps, hd⟩ := buildDir_of_not_isNamed hdir hnamed
      exact ⟨_, hd⟩
  rcases hcalls.ends with ⟨port, hfound, hport⟩ | ⟨hfound, f, hport⟩
  case inr =>
    refine hstops f w₁ (.refl w₁) ?_ ?_
    · unfold upload
      rw [hd, pure_bind, bind_of_error hport]
    · rintro ⟨⟨port, hobtains⟩, -, -⟩
      cases hfound.symm.trans ((hcalls.obtains_iff port).mp hobtains)
  obtain ⟨foundBoard, hboards, hrun⟩ :=
    boardOf?_finds (Build.boardOf o.board o.manifest u.settings) w₁
  have hknows : ∀ board, u.Knows o board ↔ foundBoard = some board := by
    intro board
    rw [← hboards]
    simp only [Knows, boardOf_eq_text_iff]
  have hunknown : foundBoard = none → ¬ ((∃ port, u.Obtains o.port w port) ∧
      (∃ board, u.Knows o board) ∧ u.Sendable o) := by
    rintro rfl ⟨-, ⟨board, hboard⟩, -⟩
    cases (hknows board).mp hboard
  rcases hrun with hrun | ⟨rfl, f, hrun⟩
  · cases foundBoard with
    | none =>
        have hupload : u.upload o w = .error (.upload (.unknownBoard
            (Build.boardOf o.board o.manifest u.settings) port)) w₁ := by
          unfold upload
          rw [hd, pure_bind, bind_of_ok hport]
          exact bind_of_ok hrun
        exact hstops _ w₁ (.refl w₁) hupload (hunknown rfl)
    | some board =>
        rcases upload_sends hdir hnames hbinary hport hrun with
          ⟨f, w₂, hquiet, hupload, hnot⟩ | ⟨w₂, hquiet, hsendable, hupload⟩
        · exact hstops f w₂ hquiet hupload fun h => hnot h.2.2
        · have hobtains : ∀ port', u.Obtains o.port w port' ↔ port' = port := by
            intro port'
            rw [hcalls.obtains_iff, hfound, Option.some.injEq, eq_comm]
          have hboard : ∀ board', u.Knows o board' ↔ board' = board := by
            intro board'
            rw [hknows, Option.some.injEq, eq_comm]
          exact ⟨_, _, account_of_send hsendable hcalls hquiet hobtains hboard hupload⟩
  · refine hstops f w₁ (.refl w₁) ?_ (hunknown rfl)
    unfold upload
    rw [hd, pure_bind, bind_of_ok hport]
    exact bind_of_error hrun

/-- **The calls of an upload.** Of the listing and the upload each is started at most once, and the
listing first: the listing exactly if no port is given and ports may be looked for, the upload
exactly if there are a port and a board in the catalog, unless the path of the directory is too
long. Neither is started with a torn word. The upload is called with that port and the board's name,
a result tells success exactly if the upload exited with 0, and there is a result whenever it
exited; if with another code, then there is a traceback whose one frame is at the port. -/
theorem deploy_calls (w : World) :
    ∃ listed uploaded, Calls u o w ((u.deploy o).after w) listed uploaded ∧
      (∀ result w', u.deploy o w = .ok result w' → Tells u o w listed uploaded result) ∧
      ∀ s ∈ uploaded, ∀ code out err,
        (s.response w.tools (w.past ++ listed.toList)).Exited code out err →
          ∃ result w', u.deploy o w = .ok result w' := by
  obtain ⟨listed, uploaded, hcalls, htells, hstops⟩ := exists_account hdir hnames hbinary w
  rw [after_deploy]
  refine ⟨listed, uploaded, hcalls, ?_⟩
  cases hrun : u.upload o w with
  | ok result w' =>
      have hdeploy := deploy_of_ok hrun
      refine ⟨fun result' w'' h => ?_, fun _ _ _ _ _ _ => ⟨result, w', hdeploy⟩⟩
      cases hdeploy.symm.trans h
      exact htells result w' hrun
  | error f w' =>
      have hexit := hstops f w' hrun
      refine ⟨fun result w'' h => ?_, fun s hs code out err h => absurd h (hexit s hs code out err)⟩
      rw [deploy_of_error hrun] at h
      cases hreported : u.reported f with
      | ok result' =>
          rw [hreported] at h
          cases h
          exact .of_failure (success_of_reported hreported) hexit
      | error f' =>
          rw [hreported] at h
          cases h

end Whole

end Uploader

/-! ## A sample

The board tool lists two ports. Its uploads exit with a given code. -/

namespace Sample

open Build.Sample (settings manifest request)

def listing : String := "Port Board\nCOM9 uno\n/dev/ttyUSB0 nano\n"

def tools (code : Int) : Tools := fun _ i d =>
  ⟨d.tree, .ok ⟨1, .empty, .exited (if i.merge then code else 0) listing.toUTF8.data.toList []⟩⟩

def world (code : Int) : World := { Build.Sample.world "" with tools := tools code }

def uploader : Uploader := ⟨settings, false⟩

def options : Options := { projectDir := request.projectDir, manifest }

def uno : Board := ⟨"uno", "Arduino Uno", 32, 2, "arduino:avr:uno"⟩

/-- The path of this directory is too long, though its names are not. -/
def deep : Path := ⟨.slash, .replicate 21 (String.ofList (.replicate 200 'a'))⟩

def deepOptions : Options := { options with port := some "COM1", buildDir := some deep }

theorem knows_uno (port : Option String) (dir : Option Path) :
    uploader.Knows { options with port, buildDir := dir } uno :=
  ⟨"uno", .ofManifest rfl rfl (by decide), by decide⟩

end Sample

namespace Uploader

/-- An upload to the first port in the listing fails, and the traceback is at that port. -/
theorem deploy_calls_sample :
    ∃ result w', Sample.uploader.deploy Sample.options (Sample.world 1) = .ok result w' ∧
      w'.past.map (·.invocation) = [Sample.uploader.listing,
        Sample.uploader.uploading "arduino:avr:uno" "COM9" (firmwareDir Sample.options)] ∧
      result.success = false ∧
      ∃ t, result.traceback = some t ∧ t.frames.map (·.file) = ["COM9"] := by
  have hport : Sample.uploader.Obtains Sample.options.port (Sample.world 1) "COM9" :=
    .listed ⟨rfl, rfl, rfl⟩ ⟨_, rfl, rfl⟩ (firstPort?_eq_some_iff.mp (by decide +kernel))
  have hshort : ¬ Overlong Sample.options := fun h => absurd h.long (by decide +kernel)
  have hsendable : Sample.uploader.Sendable Sample.options := ⟨rfl, .inr rfl, hshort⟩
  have hnames : ∀ n ∈ (firmwareDir Sample.options).parts, ¬ Disk.LongName n :=
    Disk.not_longName_of_all (by decide +kernel)
  obtain ⟨listed, uploaded, hcalls, htells, hreturns⟩ :=
    deploy_calls (u := Sample.uploader) rfl hnames rfl (Sample.world 1)
  obtain ⟨l, rfl⟩ := Option.isSome_iff_exists.mp (hcalls.listed_iff.mpr ⟨rfl, rfl, rfl⟩)
  obtain ⟨s, rfl⟩ := Option.isSome_iff_exists.mp
    (hcalls.uploaded_iff.mpr ⟨⟨_, hport⟩, ⟨_, Sample.knows_uno none none⟩, hsendable⟩)
  have hl := hcalls.listed_eq l rfl
  have hs := hcalls.uploaded_eq s rfl _ _ hport (Sample.knows_uno none none)
  have hexit : (s.response (Sample.world 1).tools ((Sample.world 1).past ++ [l])).Exited 1
      Sample.listing.toUTF8.data.toList [] := by
    refine ⟨_, rfl, ?_⟩
    rw [hs]
    rfl
  obtain ⟨result, w', hrun⟩ := hreturns s rfl _ _ _ hexit
  have hresult := htells result w' hrun
  refine ⟨result, w', hrun, ?_, ?_, hresult.traceback s rfl _ _ _ hexit (by decide) _ hport⟩
  · have hpast := hcalls.trail.past
    rw [after_of_ok hrun] at hpast
    rw [hpast]
    show [l.invocation, s.invocation] = _
    rw [hl, hs]
    rfl
  · cases hsuccess : result.success with
    | false => rfl
    | true =>
        obtain ⟨s', hs', out, err, hexit'⟩ := hresult.success_iff.mp hsuccess
        cases hs'
        cases (hexit.unique hexit').1

/-- With a port and a board, and with short names, the upload is not started if the whole path is
too long: the question whether it is there stops it. -/
theorem deploy_calls_overlong :
    Sample.uploader.Obtains Sample.deepOptions.port (Sample.world 0) "COM1" ∧
      Sample.uploader.Knows Sample.deepOptions Sample.uno ∧
      (∀ n ∈ (firmwareDir Sample.deepOptions).parts, ¬ Disk.LongName n) ∧
      ∃ w', Sample.uploader.deploy Sample.deepOptions (Sample.world 0) =
          .error (.file (.on .nameTooLong Sample.deep)) w' ∧ w'.past = [] := by
  have hnames : ∀ n ∈ (firmwareDir Sample.deepOptions).parts, ¬ Disk.LongName n :=
    Disk.not_longName_of_all (by decide +kernel)
  have hnull : Disk.hasNull (firmwareDir Sample.deepOptions).toString = false := by
    rw [Disk.hasNull_toString]
    decide +kernel
  have hthere := isThere_of_overlong hnames (Sample.world 0) ⟨hnull, by decide +kernel⟩
  have hboard : boardOf? (Build.boardOf Sample.deepOptions.board Sample.deepOptions.manifest
      Sample.uploader.settings) (Sample.world 0) = .ok (some Sample.uno) (Sample.world 0) := rfl
  have hport : Sample.uploader.portFor Sample.deepOptions.port = pure "COM1" :=
    portFor_of_given _ (by decide)
  have hupload : Sample.uploader.upload Sample.deepOptions (Sample.world 0) =
      .error (.file (.on .nameTooLong (firmwareDir Sample.deepOptions))) (Sample.world 0) := by
    unfold upload
    rw [buildDir_of_isNamed (.inl rfl), pure_bind, hport, pure_bind]
    exact (bind_of_ok hboard).trans (bind_of_error hthere)
  exact ⟨.given rfl (by decide), Sample.knows_uno _ _, hnames, _, deploy_of_error hupload, rfl⟩

end Upload.Uploader

end SketchBuild
