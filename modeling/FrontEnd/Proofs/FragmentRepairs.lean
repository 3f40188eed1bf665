/-
Module: FrontEnd.Proofs.FragmentRepairs
Layer: Proofs
Purpose: The advice on malformed numbers. What a finding suggests in place of a run of fragments is
  a float for the lexer, with nothing to report about it; and the run that the finding quotes is
  reported just so when it is lexed alone.
Imports: FrontEnd.Proofs.RunTransport, FrontEnd.Proofs.FragmentReports
Trusted boundary: none
Main exports: Text.behindPoint, Text.withOnePoint, LexesAsFloat, OffersRepairs,
  lex_repairs_are_floats
Open obligations: none
-/
import FrontEnd.Proofs.RunTransport
import FrontEnd.Proofs.FragmentReports

namespace FrontEnd

open Lexer (isNumberPart)
open Text (utf8Size)

/-! ### Texts with points -/

namespace Text

/-- What stands behind the first point of a text. -/
def behindPoint (text : List Char) : List Char :=
  (text.dropWhile (· ≠ '.')).tail

/-- A text without the points behind its first one. -/
def withOnePoint : List Char → List Char
  | [] => []
  | c :: text => if c = '.' then c :: text.filter (· ≠ '.') else c :: withOnePoint text

theorem behindPoint_append {front rest : List Char} (none : '.' ∉ front) :
    behindPoint (front ++ '.' :: rest) = rest := by
  have inside : ∀ c ∈ front, decide (c ≠ '.') = true := by
    intro c member
    rw [decide_eq_true_eq]
    rintro rfl
    exact none member
  rw [behindPoint, List.dropWhile_append_of_pos inside]
  rfl

theorem withOnePoint_append {front rest : List Char} (none : '.' ∉ front) :
    withOnePoint (front ++ '.' :: rest) = front ++ '.' :: rest.filter (· ≠ '.') := by
  induction front with
  | nil =>
      rfl
  | cons c front ih =>
      have other : c ≠ '.' := fun same => none (by simp [same])
      have rest := ih fun member => none (List.mem_cons_of_mem _ member)
      rw [List.cons_append, withOnePoint, if_neg other, rest, List.cons_append]

/-- Of digits and points, the digits are what is no point. -/
theorem filter_isDigit {part : List Char} (inside : ∀ c ∈ part, isNumberPart c = true) :
    part.filter Char.isDigit = part.filter (· ≠ '.') := by
  apply List.filter_congr
  intro c member
  rcases Lexer.isNumberPart_iff.mp (inside c member) with digit | rfl
  · have other : c ≠ '.' := by
      rintro rfl
      exact absurd digit (by decide)
    rw [digit, decide_eq_true other]
  · rfl

end Text

/-! ### Numbers alone -/

/-- The token of a float that is all of its text. -/
def Token.wholeFloat (text : String) : Token where
  kind := .floatLiteral
  span := ⟨0, text.utf8ByteSize, Nat.zero_le _⟩
  text := text

/-- Lexing a text gives one float, which is all of it, and reports nothing. -/
def LexesAsFloat (text : String) : Prop :=
  ∀ file, Lexes file text [.wholeFloat text, .endOfFile text.utf8ByteSize] []

theorem lexesAsFloat_of_shape {text : List Char}
    (shape : Lexeme.Shape { kind := .floatLiteral, text, rest := [] })
    (fits : utf8Size text ≤ Offset.limit) : LexesAsFloat (String.ofList text) := by
  intro file
  have quiet : Lexeme.Verdict { kind := .floatLiteral, text, rest := [] }
      (utf8Size [] + utf8Size []) 0 none 0 := .quiet (by simp) (by simp)
  have last : Run file 0 ([] ++ [] ++ text) [] _ [] := .finish (List.forall_mem_nil _)
  have run := Run.step (List.nil_append _).symm (List.forall_mem_nil _) shape quiet last
  have whole : Lexeme.tokenAt { kind := .floatLiteral, text, rest := [] }
      (utf8Size [] + utf8Size []) = .wholeFloat (String.ofList text) := by
    have span : Lexeme.spanAt { kind := .floatLiteral, text, rest := [] } 0
        = (Token.wholeFloat (String.ofList text)).span :=
      Span.ext_bounds rfl ((Nat.zero_add _).trans (Text.utf8ByteSize_ofList text).symm)
    rw [Lexeme.tokenAt, Text.utf8Size_nil, span]
    rfl
  refine lexes_of_run (by rwa [Text.utf8ByteSize_ofList]) ?_
  rw [whole] at run
  simpa [Text.utf8ByteSize_ofList] using run

/-- About digits and points that were reported before there is nothing to report. -/
theorem Run.found_eq_nil_of_reported {file : FileId} {reported : Nat} {before text : List Char}
    {tokens : List Token} {found : List Diagnostic}
    (run : Run file reported before text tokens found)
    (inside : ∀ c ∈ text, isNumberPart c = true)
    (covered : utf8Size before + utf8Size text ≤ reported) : found = [] := by
  induction run with
  | finish =>
      rfl
  | @step reported after before text blanks lexeme error tokens found split blank shape verdict
      more ih =>
      subst split
      simp only [Text.utf8Size_append] at covered ih
      cases verdict with
      | unexpected invalid single =>
          obtain ⟨c, text, mark, unknown, -⟩ := shape.text_of_invalid invalid
          have member : c ∈ blanks ++ (lexeme.text ++ lexeme.rest) := by simp [text]
          rcases Lexer.isNumberPart_iff.mp (inside c member) with digit | rfl
          · rw [mark.2.1] at digit
            cases digit
          · cases unknown
      | @fragments tail float point unreported =>
          have dot : utf8Size lexeme.rest = 1 + utf8Size tail := by
            rw [point]
            rfl
          omega
      | quiet =>
          refine ih (fun c member => inside c ?_) (by omega)
          exact List.mem_append_right _ (List.mem_append_right _ member)

/-! ### Runs of fragments alone -/

namespace FragmentRun

/-- The run as it stands in a text of its own. -/
def alone (run : FragmentRun) : FragmentRun where
  start := 0
  front := { run.front with rest := run.front.fragments }

theorem isNumberPart_of_mem_fragments (run : FragmentRun) :
    ∀ c ∈ run.front.fragments, isNumberPart c = true :=
  fun _ member => List.mem_takeWhile_imp member

/-- Nothing but fragments is left of the fragments. -/
theorem fragments_alone (run : FragmentRun) :
    run.alone.front.fragments = run.front.fragments :=
  List.takeWhile_eq_self_iff.mpr run.isNumberPart_of_mem_fragments

/-- The text of the run has the same message and the same advice. -/
theorem finding_alone (run : FragmentRun) (file other : FileId) :
    (run.alone.finding other).message = (run.finding file).message ∧
      (run.alone.finding other).help = (run.finding file).help := by
  have problem : LexProblem.ofFragments run.alone.front.text run.alone.front.fragments
      = LexProblem.ofFragments run.front.text run.front.fragments := by
    rw [fragments_alone]
    rfl
  exact ⟨congrArg LexProblem.message problem, congrArg LexProblem.help problem⟩

/-- The float at the front, the digits behind its point, and the fragments. -/
theorem Stands.exists_digits {run : FragmentRun} {text : List Char} {tokens : List Token}
    (stands : run.Stands text tokens) :
    ∃ whole fraction tail, run.front.text = whole ++ '.' :: fraction ∧
      run.front.fragments = '.' :: tail ∧ whole ≠ [] ∧
      (∀ d ∈ whole, d.isDigit = true) ∧ ∀ d ∈ fraction, d.isDigit = true := by
  obtain ⟨whole, fraction, front, filled, insideWhole, insideFraction⟩ :=
    stands.shape.text_of_float stands.float
  obtain ⟨tail, point⟩ := stands.point
  exact ⟨whole, fraction, tail.takeWhile isNumberPart, front, Lexeme.fragments_of_point point,
    filled, insideWhole, insideFraction⟩

/-- Alone, the text of the run is reported once, as the run. -/
theorem Stands.lexes_alone {run : FragmentRun} {text : List Char} {tokens : List Token}
    (stands : run.Stands text tokens) (fits : utf8Size run.text ≤ Offset.limit) (file : FileId) :
    ∃ tokens', Lexes file (String.ofList run.text) tokens' [run.alone.finding file] := by
  obtain ⟨tail, point⟩ := stands.point
  have fragments := Lexeme.fragments_of_point point
  have shape : run.alone.front.Shape := by
    apply stands.shape.with_rest
    intro d head
    left
    rw [fragments] at head
    rw [point]
    exact head
  have verdict : run.alone.front.Verdict (utf8Size [] + utf8Size []) 0 _ _ :=
    .fragments stands.float fragments (Nat.zero_le _)
  obtain ⟨later, found, more⟩ := exists_run file
    (utf8Size [] + utf8Size [] + utf8Size run.alone.front.text
      + utf8Size run.alone.front.fragments) run.front.text run.front.fragments
  -- All points of the text belong to the run, so the rest of it is quiet.
  have quiet : found = [] := by
    apply more.found_eq_nil_of_reported run.isNumberPart_of_mem_fragments
    rw [fragments_alone, Text.utf8Size_nil, Nat.zero_add]
    exact Nat.le_refl _
  subst quiet
  have whole : Run file 0 [] run.text (run.alone.front.tokenAt 0 :: later)
      [run.alone.finding file] :=
    Run.step (List.nil_append _).symm (List.forall_mem_nil _) shape verdict more
  refine ⟨run.alone.front.tokenAt 0 :: later,
    lexes_of_run (by rwa [Text.utf8ByteSize_ofList]) ?_⟩
  rw [String.toList_ofList]
  exact whole

/-- Without its points behind the first one, the text of the run is the float at its front and the
    digits of the fragments. -/
theorem Stands.withOnePoint_eq {run : FragmentRun} {text : List Char} {tokens : List Token}
    (stands : run.Stands text tokens) :
    Text.withOnePoint run.text = run.front.text ++ run.front.fragments.filter Char.isDigit := by
  obtain ⟨whole, fraction, tail, front, -, -, insideWhole, insideFraction⟩ := stands.exists_digits
  have fractionKept : fraction.filter (· ≠ '.') = fraction := by
    rw [List.filter_eq_self]
    intro c member
    rw [decide_eq_true_eq]
    rintro rfl
    exact Text.point_not_mem insideFraction member
  rw [FragmentRun.text, front, List.append_assoc, List.cons_append,
    Text.withOnePoint_append (Text.point_not_mem insideWhole), List.filter_append, fractionKept,
    Text.filter_isDigit run.isNumberPart_of_mem_fragments, List.append_assoc, List.cons_append]

/-- The text of the run is a float without these points. -/
theorem Stands.shape_merged {run : FragmentRun} {text : List Char} {tokens : List Token}
    (stands : run.Stands text tokens) :
    Lexeme.Shape
      { kind := .floatLiteral, text := Text.withOnePoint run.text, rest := [] } := by
  obtain ⟨whole, fraction, tail, front, -, filled, insideWhole, insideFraction⟩ :=
    stands.exists_digits
  rw [stands.withOnePoint_eq, front, List.append_assoc, List.cons_append]
  refine .float filled insideWhole ?_ (by simp)
  intro d member
  rcases List.mem_append.mp member with member | member
  · exact insideFraction d member
  · exact (List.mem_filter.mp member).2

/-- So is the float at its front. -/
theorem Stands.shape_kept {run : FragmentRun} {text : List Char} {tokens : List Token}
    (stands : run.Stands text tokens) :
    Lexeme.Shape { kind := .floatLiteral, text := run.front.text, rest := [] } := by
  have cut : Lexeme.Shape { kind := run.front.kind, text := run.front.text, rest := [] } :=
    stands.shape.with_rest (by simp)
  rwa [stands.float] at cut

end FragmentRun

/-! ### The advice -/

/-- What is advised on a malformed number: to keep the float at its front, or, if a digit follows
    the second point, to drop all points but the first. -/
def repairAdvice (literal kept merged : String) : String :=
  if (Text.behindPoint (Text.behindPoint literal.toList)).any Char.isDigit then
    "use `" ++ kept ++ "` or `" ++ merged ++ "`"
  else "remove the trailing `.` to write `" ++ kept ++ "`"

theorem FragmentRun.Stands.help_finding {run : FragmentRun} {text : List Char}
    {tokens : List Token} (stands : run.Stands text tokens) (file : FileId) :
    (run.finding file).help =
      some (repairAdvice (String.ofList run.text) (String.ofList run.front.text)
        (String.ofList (Text.withOnePoint run.text))) := by
  obtain ⟨whole, fraction, tail, front, fragments, -, insideWhole, insideFraction⟩ :=
    stands.exists_digits
  have behind : Text.behindPoint (Text.behindPoint run.text) = tail := by
    rw [FragmentRun.text, front, fragments, List.append_assoc, List.cons_append,
      Text.behindPoint_append (Text.point_not_mem insideWhole),
      Text.behindPoint_append (Text.point_not_mem insideFraction)]
  have digits : run.front.fragments.filter Char.isDigit = tail.filter Char.isDigit := by
    rw [fragments, List.filter_cons_of_neg (by decide)]
  have help : (run.finding file).help
      = (LexProblem.ofFragments run.front.text run.front.fragments).help := rfl
  rw [help, repairAdvice, String.toList_ofList, behind, stands.withOnePoint_eq,
    LexProblem.ofFragments, digits]
  by_cases more : tail.any Char.isDigit = true
  · obtain ⟨d, member, digit⟩ := List.any_eq_true.mp more
    have filled : (tail.filter Char.isDigit).isEmpty = false :=
      List.isEmpty_eq_false_iff_exists_mem.mpr ⟨d, List.mem_filter.mpr ⟨member, digit⟩⟩
    rw [if_pos more]
    simp only [filled]
    rfl
  · have empty : (tail.filter Char.isDigit).isEmpty = true := by
      rw [List.isEmpty_iff, List.filter_eq_nil_iff]
      intro d member digit
      exact more (List.any_eq_true.mpr ⟨d, member, digit⟩)
    rw [if_neg more]
    simp only [empty]
    rfl

/-- A finding about a malformed number quotes the literal, keeps the float that ends at its label,
    and advises repairs that are floats. The literal alone has just this one finding. -/
structure OffersRepairs (text : String) (tokens : List Token) (finding : Diagnostic)
    (literal kept merged : String) : Prop where
  message : finding.message = "malformed float literal `" ++ literal ++ "`"
  keeps : ∃ label float, finding.primarySpan? = some label ∧
    float ∈ tokens ∧ float.kind = .floatLiteral ∧ float.span.stop = label.start ∧
    float.text = kept ∧
    Text.slice? text.toList float.span.start (float.span.start + literal.utf8ByteSize)
      = some literal.toList
  onePoint : merged.toList = Text.withOnePoint literal.toList
  help : finding.help = some (repairAdvice literal kept merged)
  keptLexes : LexesAsFloat kept
  mergedLexes : LexesAsFloat merged
  literalLexes : ∀ file, ∃ tokens again, Lexes file literal tokens [again] ∧
    again.code = some .malformedFloat ∧ again.message = finding.message ∧
    again.help = finding.help

/-- The finding about a run offers such repairs. -/
theorem FragmentRun.Stands.offersRepairs {run : FragmentRun} {text : String}
    {tokens : List Token} (stands : run.Stands text.toList tokens)
    (fits : text.utf8ByteSize ≤ Offset.limit) (file : FileId) :
    OffersRepairs text tokens (run.finding file) (String.ofList run.text)
      (String.ofList run.front.text) (String.ofList (Text.withOnePoint run.text)) := by
  obtain ⟨before, back, split, size, -⟩ := stands.exists_split
  have runFits : utf8Size run.text ≤ Offset.limit :=
    Nat.le_trans (Text.utf8Size_le_of_infix ⟨before, back, split.symm⟩) fits
  have frontSize : utf8Size run.text = utf8Size run.front.text + utf8Size run.front.fragments :=
    Text.utf8Size_append ..
  have mergedSize : utf8Size (Text.withOnePoint run.text) ≤ utf8Size run.text := by
    rw [stands.withOnePoint_eq, Text.utf8Size_append, frontSize]
    exact Nat.add_le_add_left (Text.utf8Size_le_of_sublist List.filter_sublist) _
  constructor
  · exact run.message_finding file
  · refine ⟨run.front.pointAfter run.start, run.front.tokenAt run.start,
      run.primarySpan?_finding file, stands.float_mem, stands.float, rfl, rfl, ?_⟩
    rw [Text.utf8ByteSize_ofList, String.toList_ofList]
    exact stands.slice?
  · rw [String.toList_ofList, String.toList_ofList]
  · exact stands.help_finding file
  · exact lexesAsFloat_of_shape stands.shape_kept (by omega)
  · exact lexesAsFloat_of_shape stands.shape_merged (Nat.le_trans mergedSize runFits)
  · intro other
    obtain ⟨tokens', lexed⟩ := stands.lexes_alone runFits other
    exact ⟨tokens', run.alone.finding other, lexed, rfl, run.finding_alone file other⟩

/-- The advice on malformed numbers is right: a text that fits is read to its end, and each finding
    about a malformed number that this adds to the log offers repairs that are floats. -/
theorem lex_repairs_are_floats (file : FileId) (text : String) (log : Log)
    (fits : text.utf8ByteSize ≤ Offset.limit) :
    ∃ tokens after found, lex file text log = .ok (tokens, after) ∧
      after.toList = log.toList ++ found ∧
      ∀ finding ∈ found, finding.code = some .malformedFloat →
        ∃ literal kept merged, OffersRepairs text tokens finding literal kept merged := by
  obtain ⟨tokens, found, lexed, run⟩ := lex_run file log fits
  obtain ⟨runs, accounts⟩ := run.accounts (Or.inl (Nat.zero_le _))
  refine ⟨tokens, log.emitAll found, found, lexed, log.toList_emitAll found, ?_⟩
  intro finding member malformed
  have listed : finding ∈ malformedFloats found :=
    List.mem_filter.mpr ⟨member, by rw [malformed]; rfl⟩
  rw [accounts.findings] at listed
  obtain ⟨fragmentRun, inRuns, rfl⟩ := List.mem_map.mp listed
  exact ⟨_, _, _, (accounts.stands fragmentRun inRuns).offersRepairs fits file⟩

/-- Runs with empty fragments, with digits behind the second point and without. -/
theorem lex_repairs_are_floats_three :
    "x1.2...3 4..5 6.7..".utf8ByteSize ≤ Offset.limit ∧
      ∃ tokens after found, lex ⟨0⟩ "x1.2...3 4..5 6.7.." .empty = .ok (tokens, after) ∧
        after.toList = Log.empty.toList ++ found ∧
        ∀ finding ∈ found, finding.code = some .malformedFloat →
          ∃ literal kept merged,
            OffersRepairs "x1.2...3 4..5 6.7.." tokens finding literal kept merged :=
  have fits : "x1.2...3 4..5 6.7..".utf8ByteSize ≤ Offset.limit := by decide
  ⟨fits, lex_repairs_are_floats ⟨0⟩ _ .empty fits⟩

end FrontEnd
