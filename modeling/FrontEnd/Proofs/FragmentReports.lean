/-
Module: FrontEnd.Proofs.FragmentReports
Layer: Proofs
Purpose: Malformed numbers are reported once. Each finding is about one stretch of the text, a float
  with further points behind it that goes as far as it can; the stretches do not overlap, and no
  float with a point behind it is left out.
Imports: FrontEnd.Proofs.NumberFragments
Trusted boundary: none
Main exports: IsRunOf, ManyPointed, ReportedOnce, lex_reports_fragments_once
Open obligations: none
-/
import FrontEnd.Proofs.NumberFragments

namespace FrontEnd

open Lexer (isNumberPart)
open Text (utf8Size)

/-! ### What is claimed of the findings -/

/-- The stretch of the text that a finding is about: it begins with the float that ends where the
    label starts, and the message quotes it. -/
def IsRunOf (text : String) (tokens : List Token) (finding : Diagnostic) (run : Span) : Prop :=
  ∃ label float literal, finding.primarySpan? = some label ∧
    float ∈ tokens ∧ float.kind = .floatLiteral ∧ float.span.stop = label.start ∧
    float.span.start = run.start ∧ run.slice? text.toList = some literal ∧
    finding.message = "malformed float literal `" ++ String.ofList literal ++ "`"

/-- Digits, a point and digits, and then at least once a point and digits. Only the digits at the
    front cannot be missing. -/
inductive ManyPointed : List Char → Prop where
  | intro {whole fraction : List Char} {fragments : List (List Char)} (filled : whole ≠ [])
      (insideWhole : ∀ d ∈ whole, d.isDigit = true)
      (insideFraction : ∀ d ∈ fraction, d.isDigit = true) (more : fragments ≠ [])
      (insideFragments : ∀ fragment ∈ fragments, ∀ d ∈ fragment, d.isDigit = true) :
      ManyPointed (whole ++ '.' :: fraction ++ fragments.flatMap ('.' :: ·))

/-- The bytes of digits and of the point. -/
def Text.IsNumberByte (byte : UInt8) : Prop :=
  (0x30 ≤ byte ∧ byte ≤ 0x39) ∨ byte = 0x2e

/-- The label is the point of the first joint in the run, which is the second point of its text. -/
structure MarksSecondPoint (text : String) (tokens : List Token) (run label : Span) : Prop where
  oneByte : label.stop = label.start + 1
  firstJoint : ∃ float dot, IsJoint tokens float dot ∧ run.Holds float dot ∧ dot.span = label ∧
    ∀ float' dot', IsJoint tokens float' dot' → run.Holds float' dot' →
      dot.span.start ≤ dot'.span.start
  secondPoint : ∃ kept tail, run.slice? text.toList = some (kept ++ '.' :: tail) ∧
    kept.count '.' = 1 ∧ run.start + utf8Size kept = label.start

/-- Findings about malformed numbers in a text with certain tokens: each is about one run, and each
    joint of the tokens lies in one. -/
structure ReportedOnce (text : String) (tokens : List Token) (findings : List Diagnostic) :
    Prop where
  run : ∀ finding ∈ findings, ∃ run, ∀ other, IsRunOf text tokens finding other ↔ other = run
  malformed : ∀ finding ∈ findings, ∀ run, IsRunOf text tokens finding run →
    ∃ literal, run.slice? text.toList = some literal ∧ ManyPointed literal
  maximal : ∀ finding ∈ findings, ∀ run, IsRunOf text tokens finding run →
    ∀ byte, (Text.bytes text)[run.stop]? = some byte → ¬ Text.IsNumberByte byte
  disjoint : findings.Pairwise fun first second => ∀ run run',
    IsRunOf text tokens first run → IsRunOf text tokens second run' → run.stop ≤ run'.start
  /-- The run that holds a joint is that of one finding, and no other finding has such a run. -/
  joints : ∀ float dot, IsJoint tokens float dot → ∃ earlier finding later,
    findings = earlier ++ finding :: later ∧
    (∃ run, IsRunOf text tokens finding run ∧ run.Holds float dot) ∧
    ∀ other ∈ earlier ++ later, ∀ run, IsRunOf text tokens other run → ¬ run.Holds float dot
  label : ∀ finding ∈ findings, ∀ run, IsRunOf text tokens finding run →
    ∃ label, finding.primarySpan? = some label ∧ MarksSecondPoint text tokens run label

/-! ### Digits and points as fragments -/

/-- Digits and points are digits, and then points with digits behind each. -/
theorem exists_fragments {text : List Char} (inside : ∀ c ∈ text, isNumberPart c = true) :
    ∃ (digits : List Char) (fragments : List (List Char)),
      text = digits ++ fragments.flatMap ('.' :: ·) ∧ (∀ d ∈ digits, d.isDigit = true) ∧
      ∀ fragment ∈ fragments, ∀ d ∈ fragment, d.isDigit = true := by
  induction text with
  | nil =>
      exact ⟨[], [], rfl, by simp, by simp⟩
  | cons c text ih =>
      obtain ⟨digits, fragments, rfl, insideDigits, insideFragments⟩ :=
        ih fun d member => inside d (List.mem_cons_of_mem _ member)
      rcases Lexer.isNumberPart_iff.mp (inside c (List.mem_cons_self ..)) with digit | rfl
      · refine ⟨c :: digits, fragments, rfl, ?_, insideFragments⟩
        intro d member
        rcases List.mem_cons.mp member with rfl | member
        · exact digit
        · exact insideDigits d member
      · refine ⟨[], digits :: fragments, rfl, by simp, ?_⟩
        intro fragment member
        rcases List.mem_cons.mp member with rfl | member
        · exact insideDigits
        · exact insideFragments fragment member

/-- Only digits and points have such a byte. -/
theorem Text.not_isNumberByte {c : Char} (other : isNumberPart c = false) :
    ∀ byte ∈ String.utf8EncodeChar c, ¬ Text.IsNumberByte byte := by
  intro byte member isNumber
  rw [← Bool.not_eq_true, Lexer.isNumberPart_iff, Lexer.isDigit_iff, Lexer.eq_iff_toNat] at other
  have point : '.'.toNat = 46 := rfl
  rcases isNumber with ⟨low, high⟩ | same
  · have lowNat : 48 ≤ byte.toNat := low
    have highNat : byte.toNat ≤ 57 := high
    rcases Text.toNat_of_mem_utf8EncodeChar member with code | large <;> omega
  · have code46 : byte.toNat = 46 := by rw [same]; rfl
    rcases Text.toNat_of_mem_utf8EncodeChar member with code | large <;> omega

/-- A message quotes one text only. -/
theorem literal_eq_of_message {quoted quoted' : List Char}
    (same : "malformed float literal `" ++ String.ofList quoted ++ "`" =
      "malformed float literal `" ++ String.ofList quoted' ++ "`") : quoted = quoted' := by
  have characters := congrArg String.toList same
  simp only [String.toList_append, String.toList_ofList] at characters
  exact List.append_cancel_left (List.append_cancel_right characters)

/-! ### Runs that stand in a text -/

namespace FragmentRun

variable {run : FragmentRun} {text : String} {tokens : List Token}

theorem primarySpan?_finding (run : FragmentRun) (file : FileId) :
    (run.finding file).primarySpan? = some (run.front.pointAfter run.start) := rfl

theorem message_finding (run : FragmentRun) (file : FileId) :
    (run.finding file).message =
      "malformed float literal `" ++ String.ofList run.text ++ "`" := rfl

namespace Stands

/-- The text of the run goes as far as digits and points do. -/
theorem exists_split (stands : run.Stands text.toList tokens) :
    ∃ before back, text.toList = before ++ run.text ++ back ∧ utf8Size before = run.start ∧
      ∀ c ∈ back.head?, isNumberPart c = false := by
  obtain ⟨before, split, size⟩ := stands.place
  refine ⟨before, run.front.rest.dropWhile isNumberPart, ?_, size,
    Text.stop_dropWhile isNumberPart _⟩
  rw [split, FragmentRun.text, Lexeme.fragments, List.append_assoc, List.append_assoc,
    List.takeWhile_append_dropWhile]

theorem slice? (stands : run.Stands text.toList tokens) :
    run.span.slice? text.toList = some run.text := by
  obtain ⟨before, back, split, size, -⟩ := stands.exists_split
  exact Text.slice?_eq_some_iff.mpr ⟨before, back, split, size, rfl⟩

theorem not_isNumberByte (stands : run.Stands text.toList tokens) {byte : UInt8}
    (found : (Text.bytes text)[run.span.stop]? = some byte) : ¬ Text.IsNumberByte byte := by
  obtain ⟨before, back, split, size, stop⟩ := stands.exists_split
  have runEnd : run.span.stop = utf8Size (before ++ run.text) := by
    rw [Text.utf8Size_append, size]
    rfl
  rw [Text.bytes_eq, split, runEnd] at found
  cases back with
  | nil =>
      rw [List.append_nil, List.getElem?_eq_none (by simp)] at found
      cases found
  | cons c back =>
      exact Text.not_isNumberByte (stop c rfl) byte
        (Text.mem_utf8EncodeChar_of_getElem? found)

theorem manyPointed (stands : run.Stands text.toList tokens) : ManyPointed run.text := by
  obtain ⟨whole, fraction, front, filled, insideWhole, insideFraction⟩ :=
    stands.shape.text_of_float stands.float
  obtain ⟨tail, point⟩ := stands.point
  obtain ⟨digits, fragments, tailEq, insideDigits, insideFragments⟩ :=
    @exists_fragments (tail.takeWhile isNumberPart) fun c member => List.mem_takeWhile_imp member
  have split : run.text
      = whole ++ '.' :: fraction ++ (digits :: fragments).flatMap ('.' :: ·) := by
    rw [FragmentRun.text, front, Lexeme.fragments_of_point point, tailEq]
    rfl
  rw [split]
  apply ManyPointed.intro filled insideWhole insideFraction (List.cons_ne_nil _ _)
  intro fragment member
  rcases List.mem_cons.mp member with rfl | member
  · exact insideDigits
  · exact insideFragments fragment member

/-- The first point behind the float is the second point of the run. -/
theorem marksSecondPoint (stands : run.Stands text.toList tokens) (tiles : Tiles text tokens) :
    MarksSecondPoint text tokens run.span (run.front.pointAfter run.start) := by
  obtain ⟨tail, point⟩ := stands.point
  have fragments := Lexeme.fragments_of_point point
  obtain ⟨dot, dotMember, dotKind, dotSpan⟩ := stands.dot_mem
  constructor
  · rfl
  · refine ⟨_, dot, ⟨stands.float_mem, stands.float, dotMember, dotKind, ?_⟩,
      ⟨Nat.le_refl _, ?_⟩, dotSpan, ?_⟩
    · rw [dotSpan]
      rfl
    · have filled := Lexeme.fragments_pos point
      rw [dotSpan]
      change run.start + utf8Size run.front.text + 1 ≤ run.start + utf8Size run.text
      rw [FragmentRun.text, Text.utf8Size_append]
      omega
    · intro float' dot' joint holds
      rw [dotSpan, ← joint.adjacent]
      have start : run.start ≤ float'.span.start := holds.1
      have filled := tiles.start_lt_stop joint.float_mem (by simp [joint.float_kind])
      rcases tiles.apart stands.float_mem joint.float_mem with rfl | before | behind
      · exact Nat.le_refl _
      · exact Nat.le_trans before (Nat.le_of_lt filled)
      · have order : float'.span.stop ≤ run.start := behind
        omega
  · obtain ⟨whole, fraction, front, filled, insideWhole, insideFraction⟩ :=
      stands.shape.text_of_float stands.float
    refine ⟨run.front.text, tail.takeWhile isNumberPart, ?_, ?_, rfl⟩
    · rw [stands.slice?, FragmentRun.text, fragments]
    · rw [front, List.count_append, List.count_cons_self,
        List.count_eq_zero_of_not_mem (Text.point_not_mem insideWhole),
        List.count_eq_zero_of_not_mem (Text.point_not_mem insideFraction)]

/-- The finding at a run is about that run. -/
theorem isRunOf_iff (stands : run.Stands text.toList tokens) (tiles : Tiles text tokens)
    (file : FileId) (other : Span) :
    IsRunOf text tokens (run.finding file) other ↔ other = run.span := by
  constructor
  · rintro ⟨label, float, literal, labelEq, member, kind, stop, start, slice, message⟩
    rw [run.primarySpan?_finding file] at labelEq
    cases labelEq
    have filled := tiles.start_lt_stop member (by simp [kind])
    have filledFront := tiles.start_lt_stop stands.float_mem (by simp [stands.float])
    have floatEq : run.front.tokenAt run.start = float := by
      have stop' : float.span.stop = (run.front.tokenAt run.start).span.stop := stop
      rcases tiles.apart stands.float_mem member with same | before | behind
      · exact same
      · omega
      · omega
    subst floatEq
    rw [run.message_finding file] at message
    obtain rfl := literal_eq_of_message message
    obtain ⟨before, back, -, -, size⟩ := Text.slice?_eq_some_iff.mp slice
    have startEq : other.start = run.start := start.symm
    rw [startEq] at size
    exact Span.ext_bounds startEq size.symm
  · rintro rfl
    refine ⟨run.front.pointAfter run.start, run.front.tokenAt run.start, run.text,
      run.primarySpan?_finding file, stands.float_mem, stands.float, rfl, rfl, stands.slice?,
      run.message_finding file⟩

end Stands

end FragmentRun

/-- Of two spans one behind the other only one holds a joint. -/
theorem Span.Holds.not_both {first second : Span} {float dot : Token} {tokens : List Token}
    {text : String} (joint : IsJoint tokens float dot) (tiles : Tiles text tokens)
    (order : first.stop ≤ second.start) (one : first.Holds float dot)
    (two : second.Holds float dot) : False := by
  have filled := tiles.start_lt_stop joint.dot_mem (by simp [joint.dot_kind])
  have adjacent := joint.adjacent
  have forward := float.span.start_le_stop
  have stop := one.2
  have start := two.1
  omega

/-- A joint lies in one run of those that account for it, and in no other. -/
theorem Accounts.exists_run {file : FileId} {text : String} {tokens : List Token}
    {found : List Diagnostic} {runs : List FragmentRun} {float dot : Token}
    (accounts : Accounts file 0 text.toList tokens found runs) (tiles : Tiles text tokens)
    (joint : IsJoint tokens float dot) :
    ∃ earlier run later, runs = earlier ++ run :: later ∧ run.span.Holds float dot ∧
      ∀ other ∈ earlier ++ later, ¬ other.span.Holds float dot := by
  rcases accounts.joints float dot joint with unread | ⟨run, member, holds⟩
  · have filled := tiles.start_lt_stop joint.dot_mem (by simp [joint.dot_kind])
    omega
  · obtain ⟨earlier, later, split⟩ := List.append_of_mem member
    have ordered := accounts.ordered
    rw [split, List.pairwise_append, List.pairwise_cons] at ordered
    obtain ⟨-, ⟨before, -⟩, across⟩ := ordered
    refine ⟨earlier, run, later, split, holds, ?_⟩
    intro other otherMember otherHolds
    rcases List.mem_append.mp otherMember with front | back
    · exact Span.Holds.not_both joint tiles
        (across other front run (List.mem_cons_self ..)) otherHolds holds
    · exact Span.Holds.not_both joint tiles (before other back) holds otherHolds

/-- Findings that account for all joints report each run once. -/
theorem Accounts.reportedOnce {file : FileId} {text : String} {tokens : List Token}
    {found : List Diagnostic} {runs : List FragmentRun}
    (accounts : Accounts file 0 text.toList tokens found runs) (tiles : Tiles text tokens) :
    ReportedOnce text tokens (malformedFloats found) := by
  rw [accounts.findings]
  have about (run : FragmentRun) (member : run ∈ runs) :=
    (accounts.stands run member).isRunOf_iff tiles file
  -- Each finding is that of a run, and the run that it is about can be no other.
  have each {P : Diagnostic → Span → Prop}
      (holds : ∀ run ∈ runs, P (run.finding file) run.span) :
      ∀ finding ∈ runs.map (·.finding file), ∀ span, IsRunOf text tokens finding span →
        P finding span := by
    intro finding findingMember span isRun
    obtain ⟨run, member, rfl⟩ := List.mem_map.mp findingMember
    obtain rfl := (about run member span).mp isRun
    exact holds run member
  constructor
  · intro finding findingMember
    obtain ⟨run, member, rfl⟩ := List.mem_map.mp findingMember
    exact ⟨run.span, about run member⟩
  · apply each
    intro run member
    have stands := accounts.stands run member
    exact ⟨run.text, stands.slice?, stands.manyPointed⟩
  · apply each
    intro run member byte
    exact (accounts.stands run member).not_isNumberByte
  · rw [List.pairwise_map]
    apply accounts.ordered.imp_of_mem
    intro first second firstMember secondMember order span span' isRun isRun'
    rw [(about first firstMember span).mp isRun, (about second secondMember span').mp isRun']
    exact order
  · intro float dot joint
    obtain ⟨earlier, run, later, split, holds, others⟩ := accounts.exists_run tiles joint
    have member : run ∈ runs := by
      rw [split]
      exact List.mem_append_right _ (List.mem_cons_self ..)
    refine ⟨earlier.map (·.finding file), run.finding file, later.map (·.finding file), ?_,
      ⟨run.span, (about run member run.span).mpr rfl, holds⟩, ?_⟩
    · rw [split, List.map_append, List.map_cons]
    · intro other otherMember span isRun
      rw [← List.map_append] at otherMember
      obtain ⟨run', member', rfl⟩ := List.mem_map.mp otherMember
      have inRuns : run' ∈ runs := by
        rw [split]
        rcases List.mem_append.mp member' with front | back
        · exact List.mem_append_left _ front
        · exact List.mem_append_right _ (List.mem_cons_of_mem _ back)
      obtain rfl := (about run' inRuns span).mp isRun
      exact others run' member'
  · apply each
    intro run member
    exact ⟨_, run.primarySpan?_finding file,
      (accounts.stands run member).marksSecondPoint tiles⟩

/-- Malformed numbers are reported once: a text that fits is read to its end, and the findings about
    malformed numbers that this adds to the log are about the runs of number fragments in the text,
    one for each. -/
theorem lex_reports_fragments_once (file : FileId) (text : String) (log : Log)
    (fits : text.utf8ByteSize ≤ Offset.limit) :
    ∃ tokens after found, lex file text log = .ok (tokens, after) ∧
      after.toList = log.toList ++ found ∧
      ReportedOnce text tokens (found.filter (·.code == some .malformedFloat)) := by
  obtain ⟨tokens, found, lexed, run⟩ := lex_run file log fits
  obtain ⟨runs, accounts⟩ := run.accounts (Or.inl (Nat.zero_le _))
  exact ⟨tokens, log.emitAll found, found, lexed, log.toList_emitAll found,
    accounts.reportedOnce run.tiles⟩

/-- A run behind a word, with an empty fragment, and a second run. -/
theorem lex_reports_fragments_once_two :
    "x1.2.3..4 5.6.7".utf8ByteSize ≤ Offset.limit ∧
      ∃ tokens after found, lex ⟨0⟩ "x1.2.3..4 5.6.7" .empty = .ok (tokens, after) ∧
        after.toList = Log.empty.toList ++ found ∧
        ReportedOnce "x1.2.3..4 5.6.7" tokens
          (found.filter (·.code == some .malformedFloat)) :=
  have fits : "x1.2.3..4 5.6.7".utf8ByteSize ≤ Offset.limit := by decide
  ⟨fits, lex_reports_fragments_once ⟨0⟩ _ .empty fits⟩

end FrontEnd
