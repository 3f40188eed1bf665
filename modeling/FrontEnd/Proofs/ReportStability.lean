/-
Module: FrontEnd.Proofs.ReportStability
Layer: Proofs
Purpose: What a report depends on. A report is made of the labels in known files, each with its
  file, and of nothing else in the sources: it stays what it is however a session goes on, and a
  label in an unknown file leaves no trace in it.
Imports: FrontEnd.Proofs.SnippetCuts, FrontEnd.Proofs.PlaceLimits
Trusted boundary: none
Main exports: Session.sources_perform, Session.get?_run, SourceMap.locate, Report.snippets_eq,
  Report.render_cases, Report.Alike, reports_stable
Open obligations: none
-/
import FrontEnd.Proofs.SnippetCuts
import FrontEnd.Proofs.PlaceLimits

namespace FrontEnd

/-! ### Sessions that go on -/

namespace Session

/-- A request leaves the files as they are or registers one more behind them. -/
theorem sources_perform (session : Session) (request : Request) :
    (session.perform request).2.sources = session.sources ∨
      ∃ file, (session.perform request).2.sources
        = { files := session.sources.files.push file } := by
  cases request with
  | addFile name text =>
      rcases session.sources.tryAddFile_cases name text
        with ⟨-, tried⟩ | ⟨-, -, file, -, -, tried⟩ | ⟨-, -, tried⟩
      all_goals
        simp only [perform, addFile, SourceMap.addFile, tried, bind, Except.bind, pure,
          Except.pure, throw, throwThe, MonadExceptOf.throw, true_or]
      exact Or.inr ⟨file, rfl⟩
  | tryAddFile name text =>
      rcases session.sources.tryAddFile_cases name text
        with ⟨-, tried⟩ | ⟨-, -, file, -, -, tried⟩ | ⟨-, -, tried⟩
      all_goals
        simp only [perform, tryAddFile, tried, bind, Except.bind, pure, Except.pure, true_or]
      exact Or.inr ⟨file, rfl⟩
  | lexFile id =>
      left
      simp only [perform, lexFile]
      cases session.sources.get? id with
      | none =>
          rfl
      | some file =>
          simp only [bind, Except.bind]
          cases lex id file.text session.log with
          | error fault => rfl
          | ok lexed => rfl
  | emit diagnostic =>
      exact Or.inl rfl
  | drain =>
      exact Or.inl rfl

variable {session : Session} {id : FileId} {file : SourceFile}

/-- A handle keeps its file whatever is asked of the session. -/
theorem get?_perform (known : session.sources.get? id = some file) (request : Request) :
    (session.perform request).2.sources.get? id = some file := by
  rcases session.sources_perform request with same | ⟨other, registered⟩
  · rwa [same]
  · obtain ⟨listed, found⟩ := Array.getElem?_eq_some_iff.mp known
    rw [registered, SourceMap.get?, Array.getElem?_push_lt listed, found]

/-- A handle keeps its file through any run. -/
theorem get?_run (known : session.sources.get? id = some file) (requests : List Request) :
    (session.run requests).2.sources.get? id = some file := by
  induction requests generalizing session with
  | nil =>
      exact known
  | cons request requests ih =>
      exact ih (get?_perform known request)

end Session

/-! ### The labels that a report shows -/

namespace SourceMap

/-- The labels in known files, each with its file. -/
def locate (sources : SourceMap) (labels : List Label) : List (Label × SourceFile) :=
  labels.filterMap fun label => (sources.get? label.file).map (label, ·)

variable {sources others : SourceMap} {labels : List Label}

theorem locate_congr (same : ∀ label ∈ labels, sources.get? label.file = others.get? label.file) :
    sources.locate labels = others.locate labels :=
  List.filterMap_congr fun label member => by rw [same label member]

/-- Labels in unknown files do not count. -/
theorem locate_filter_knows : sources.locate (labels.filter sources.knows)
    = sources.locate labels := by
  rw [locate, List.filterMap_filter]
  refine List.filterMap_congr fun label _ => ?_
  cases known : sources.get? label.file with
  | none => simp [knows, known]
  | some file => simp [knows, known]

/-- Resolving labels comes to cutting a snippet for each of those in known files. -/
theorem mapM_resolve_eq (sources : SourceMap) (labels : List Label) :
    (labels.mapM (Snippet.resolve sources)).map (List.filterMap id)
      = (sources.locate labels).mapM fun located => Snippet.ofFile located.1 located.2 := by
  induction labels with
  | nil =>
      rfl
  | cons label labels ih =>
      rw [List.mapM_cons]
      cases known : sources.get? label.file with
      | none =>
          have located : sources.locate (label :: labels) = sources.locate labels :=
            List.filterMap_cons_none (by rw [known]; rfl)
          rw [located, ← ih, Snippet.resolve_of_unknown known]
          cases labels.mapM (Snippet.resolve sources) with
          | error fault => rfl
          | ok options => rfl
      | some file =>
          have located : sources.locate (label :: labels)
              = (label, file) :: sources.locate labels :=
            List.filterMap_cons_some (by rw [known]; rfl)
          rw [located, List.mapM_cons, ← ih, Snippet.resolve, known]
          dsimp only
          cases Snippet.ofFile label file with
          | error fault => rfl
          | ok snippet =>
              cases labels.mapM (Snippet.resolve sources) with
              | error fault => rfl
              | ok options => rfl

end SourceMap

/-- The finding without its labels in unknown files. -/
def Diagnostic.knownIn (diagnostic : Diagnostic) (sources : SourceMap) : Diagnostic :=
  { diagnostic with labels := diagnostic.labels.filter sources.knows }

/-! ### Reports -/

/-- A label has a snippet in any file, unless its start has no place there. -/
theorem Snippet.ofFile_cases (label : Label) (file : SourceFile) :
    (∃ snippet, ofFile label file = .ok snippet) ∨
      ofFile label file = .error .additionOverflow := by
  have inFile : label.startIn file ≤ file.size := Nat.min_le_right _ _
  by_cases past : file.PastLimit (label.startIn file)
  · right
    obtain ⟨overflow, -⟩ := SourceFile.lineColumn_of_pastLimit inFile past
    rw [Label.startIn] at overflow
    simp only [ofFile, overflow, bind, Except.bind]
  · left
    obtain ⟨place, exact⟩ := SourceFile.lineColumn_of_not_pastLimit inFile past
    rw [exact, Nat.add_comm] at place
    obtain ⟨snippet, -, -, -, found, -⟩ := exists_cutAt_of_place place
    exact ⟨snippet, found⟩

/-- If each step has a result or stops with one fault, so does a series of them. -/
theorem mapM_cases {α β : Type} {step : α → Except Fault β} {fault : Fault}
    (each : ∀ item, (∃ result, step item = .ok result) ∨ step item = .error fault)
    (items : List α) :
    (∃ results, items.mapM step = .ok results) ∨ items.mapM step = .error fault := by
  induction items with
  | nil =>
      exact Or.inl ⟨[], rfl⟩
  | cons item items ih =>
      rw [List.mapM_cons]
      rcases each item with ⟨result, here⟩ | stopped
      · rcases ih with ⟨results, later⟩ | stopped
        · exact Or.inl ⟨result :: results, by rw [here, later]; rfl⟩
        · exact Or.inr (by rw [here, stopped]; rfl)
      · exact Or.inr (by rw [stopped]; rfl)

namespace Report

variable {diagnostic other : Diagnostic} {sources others : SourceMap}

/-- The snippets of a report are cut for its labels in known files. -/
theorem snippets_eq (diagnostic : Diagnostic) (sources : SourceMap) :
    snippets diagnostic sources =
      (sources.locate diagnostic.labels).mapM fun located =>
        Snippet.ofFile located.1 located.2 := by
  rw [← SourceMap.mapM_resolve_eq, snippets]
  cases diagnostic.labels.mapM (Snippet.resolve sources) with
  | error fault => rfl
  | ok options => rfl

/-- A report is written, unless the place of a label passes the limit. -/
theorem render_cases (colored : Bool) (diagnostic : Diagnostic) (sources : SourceMap) :
    (∃ text, render colored diagnostic sources = .ok text) ∨
      render colored diagnostic sources = .error .additionOverflow := by
  have found := mapM_cases (fun located => Snippet.ofFile_cases located.1 located.2)
    (sources.locate diagnostic.labels)
  rw [← snippets_eq] at found
  rcases found with ⟨shown, found⟩ | stopped
  · left
    simp only [render, rows, found, bind, Except.bind, pure, Except.pure]
    exact ⟨_, rfl⟩
  · right
    simp only [render, rows, stopped, bind, Except.bind]

/-- Two findings have one report, each in its sources: both are written, with the same text, or
    neither is because the place of a label passes the limit. The numbers of lines are as wide, and
    the advice is indented as far. -/
structure Alike (diagnostic other : Diagnostic) (sources others : SourceMap) : Prop where
  render : ∀ colored,
    (∃ text, Report.render colored diagnostic sources = .ok text ∧
      Report.render colored other others = .ok text) ∨
    (Report.render colored diagnostic sources = .error .additionOverflow ∧
      Report.render colored other others = .error .additionOverflow)
  rows : Report.rows diagnostic sources = Report.rows other others
  width : (snippets diagnostic sources).map numberWidth = (snippets other others).map numberWidth
  advice : (snippets diagnostic sources).map
      (fun shown => diagnostic.help.map (helpRow (numberWidth shown)))
    = (snippets other others).map fun shown => other.help.map (helpRow (numberWidth shown))

/-- Findings that differ in labels only have one report if the same labels are located in the same
    files. -/
theorem alike_of_locate_eq {labels : List Label}
    (same : sources.locate diagnostic.labels = others.locate labels) :
    Alike diagnostic { diagnostic with labels } sources others := by
  have shown : snippets diagnostic sources = snippets { diagnostic with labels } others := by
    rw [snippets_eq, snippets_eq, same]
  have rows : rows diagnostic sources = rows { diagnostic with labels } others := by
    rw [Report.rows, Report.rows, shown]
    rfl
  constructor
  · intro colored
    have rendered : render colored diagnostic sources
        = render colored { diagnostic with labels } others := by
      rw [render, render, rows]
    rw [← rendered]
    rcases render_cases colored diagnostic sources with ⟨text, written⟩ | stopped
    · exact Or.inl ⟨text, written, written⟩
    · exact Or.inr ⟨stopped, stopped⟩
  · exact rows
  · rw [shown]
  · rw [shown]

end Report

/-- A report stays what it is while the session goes on, if the files of its labels are known; and
    the labels in unknown files leave no trace in a report, with colors or without. -/
theorem reports_stable (diagnostic : Diagnostic) (sources : SourceMap) :
    ((∀ label ∈ diagnostic.labels, sources.knows label = true) →
      ∀ log requests,
        Report.Alike diagnostic diagnostic sources
          (Session.run { sources, log } requests).2.sources) ∧
    Report.Alike diagnostic (diagnostic.knownIn sources) sources sources := by
  constructor
  · intro known log requests
    refine Report.alike_of_locate_eq (SourceMap.locate_congr fun label member => ?_)
    obtain ⟨file, found⟩ := Option.isSome_iff_exists.mp (known label member)
    have later := @Session.get?_run { sources, log } _ _ found requests
    rw [found, later]
  · exact Report.alike_of_locate_eq SourceMap.locate_filter_knows.symm

/-- Of the labels of the scattered finding, all but the last are in the one file that is known; two
    more files join it. -/
theorem reports_stable_scattered :
    (scatteredFinding.knownIn { files := #[mixedLinesFile] }).labels
        = scatteredFinding.labels.take 4 ∧
      (∀ label ∈ (scatteredFinding.knownIn { files := #[mixedLinesFile] }).labels,
        SourceMap.knows { files := #[mixedLinesFile] } label = true) ∧
      Report.Alike (scatteredFinding.knownIn { files := #[mixedLinesFile] })
        (scatteredFinding.knownIn { files := #[mixedLinesFile] }) { files := #[mixedLinesFile] }
        (Session.run { sources := { files := #[mixedLinesFile] } }
          [.addFile "b" "x", .tryAddFile "c" ""]).2.sources ∧
      Report.Alike scatteredFinding (scatteredFinding.knownIn { files := #[mixedLinesFile] })
        { files := #[mixedLinesFile] } { files := #[mixedLinesFile] } := by
  have known : ∀ label ∈ (scatteredFinding.knownIn { files := #[mixedLinesFile] }).labels,
      SourceMap.knows { files := #[mixedLinesFile] } label = true := by
    decide
  exact ⟨by decide, known, (reports_stable _ _).1 known .empty _, (reports_stable _ _).2⟩

end FrontEnd
