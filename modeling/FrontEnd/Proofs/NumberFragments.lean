/-
Module: FrontEnd.Proofs.NumberFragments
Layer: Proofs
Purpose: Runs of number fragments and their reports. A float with a point behind it begins a run of
  digits and points; the lexer reads the run in pieces, and reports it at the first of them and
  never again.
Imports: FrontEnd.Proofs.TokenTiling
Trusted boundary: none
Main exports: Reported, FragmentRun, FragmentRun.Stands, IsJoint, Accounts, Run.accounts
Open obligations: none
-/
import FrontEnd.Proofs.TokenTiling

namespace FrontEnd

open Lexer (isBlank isNumberPart)
open Text (utf8Size)

/-! ### Digits and points -/

namespace Lexer

theorem isNumberPart_iff {c : Char} : isNumberPart c = true ↔ c.isDigit = true ∨ c = '.' := by
  simp [isNumberPart]

theorem isNumberPart_of_isBlank {c : Char} (blank : isBlank c = true) :
    isNumberPart c = false := by
  rw [← Bool.not_eq_true, isNumberPart_iff]
  intro part
  rcases part with digit | rfl
  · rw [isBlank_of_isDigit digit] at blank
    cases blank
  · exact absurd blank (by decide)

theorem isNumberPart_of_isWordStart {c : Char} (start : isWordStart c = true) :
    isNumberPart c = false := by
  rw [← Bool.not_eq_true, isNumberPart_iff]
  intro part
  rcases part with digit | rfl
  · rw [isWordStart_of_isDigit digit] at start
    cases start
  · exact absurd start (by decide)

/-- A float has only digits and points. -/
theorem isNumberPart_float {whole fraction : List Char}
    (insideWhole : ∀ d ∈ whole, d.isDigit = true)
    (insideFraction : ∀ d ∈ fraction, d.isDigit = true) :
    ∀ c ∈ whole ++ '.' :: fraction, isNumberPart c = true := by
  intro c member
  apply isNumberPart_iff.mpr
  rcases List.mem_append.mp member with member | member
  · exact Or.inl (insideWhole c member)
  · rcases List.mem_cons.mp member with rfl | member
    · exact Or.inr rfl
    · exact Or.inl (insideFraction c member)

end Lexer

namespace Lexeme

namespace Shape

/-- A lexeme has only digits and points, or it begins with neither. -/
theorem isNumberPart_cases {lexeme : Lexeme} (shape : lexeme.Shape) :
    (∀ c ∈ lexeme.text, isNumberPart c = true) ∨
      ∀ c ∈ lexeme.text.head?, isNumberPart c = false := by
  have alone (c : Char) : (∀ d ∈ [c], isNumberPart d = true) ∨
      ∀ d ∈ [c].head?, isNumberPart d = false := by
    cases part : isNumberPart c with
    | true => simp [part]
    | false => simp [part]
  cases shape with
  | newline =>
      exact alone '\n'
  | integer filled inside =>
      left
      intro c member
      exact Lexer.isNumberPart_iff.mpr (Or.inl (inside c member))
  | float filled insideWhole insideFraction =>
      exact Or.inl (Lexer.isNumberPart_float insideWhole insideFraction)
  | word start =>
      right
      rintro c ⟨⟩
      exact Lexer.isNumberPart_of_isWordStart start
  | pair known =>
      right
      rintro c ⟨⟩
      rw [← Bool.not_eq_true, Lexer.isNumberPart_iff]
      intro part
      rcases part with digit | rfl
      · rw [(Symbol.isMark_of_ofPair? known).1.2.1] at digit
        cases digit
      · simp [Symbol.ofPair?] at known
  | single =>
      exact alone _
  | invalid =>
      exact alone _

/-- A float is part of the digits and points that it begins. -/
theorem takeWhile_isNumberPart {lexeme : Lexeme} (shape : lexeme.Shape)
    (float : lexeme.kind = .floatLiteral) :
    (lexeme.text ++ lexeme.rest).takeWhile isNumberPart = lexeme.text ++ lexeme.fragments := by
  obtain ⟨whole, fraction, text, -, insideWhole, insideFraction⟩ := shape.text_of_float float
  have inside : ∀ c ∈ lexeme.text, isNumberPart c = true := by
    rw [text]
    exact Lexer.isNumberPart_float insideWhole insideFraction
  rw [fragments, List.takeWhile_append_of_pos inside]

end Shape

/-- Behind a point there is a run of fragments, which begins with it. -/
theorem fragments_of_point {lexeme : Lexeme} {tail : List Char}
    (point : lexeme.rest = '.' :: tail) :
    lexeme.fragments = '.' :: tail.takeWhile isNumberPart := by
  rw [fragments, point]
  exact List.takeWhile_cons_of_pos rfl

theorem fragments_pos {lexeme : Lexeme} {tail : List Char} (point : lexeme.rest = '.' :: tail) :
    0 < utf8Size lexeme.fragments := by
  apply Text.utf8Size_pos
  rw [fragments_of_point point]
  exact List.cons_ne_nil _ _

end Lexeme

/-! ### What was reported -/

/-- What was reported of a text that stands behind `before`: either nothing, or just the digits and
    points that it begins with. -/
def Reported (reported : Nat) (before text : List Char) : Prop :=
  reported ≤ utf8Size before ∨
    reported = utf8Size before + utf8Size (text.takeWhile isNumberPart)

namespace Reported

variable {reported : Nat} {before : List Char}

/-- Reading on does not change this, as long as no piece that is read leaves digits and points
    behind only a part of it. -/
theorem append {part rest : List Char} (known : Reported reported before (part ++ rest))
    (uniform : (∀ c ∈ part, isNumberPart c = true) ∨
      ∀ c ∈ part.head?, isNumberPart c = false) :
    Reported reported (before ++ part) rest := by
  unfold Reported at known ⊢
  rw [Text.utf8Size_append]
  rcases known with unread | run
  · left
    omega
  · rcases uniform with inside | outside
    · right
      rw [run, List.takeWhile_append_of_pos inside, Text.utf8Size_append, Nat.add_assoc]
    · cases part with
      | nil =>
          right
          simpa using run
      | cons c part =>
          left
          have other : isNumberPart c = false := outside c rfl
          rw [List.cons_append, List.takeWhile_cons_of_neg (by simp [other])] at run
          rw [run, Text.utf8Size_nil]
          omega

theorem append_blanks {blanks rest : List Char}
    (known : Reported reported before (blanks ++ rest))
    (blank : ∀ c ∈ blanks, isBlank c = true) : Reported reported (before ++ blanks) rest := by
  apply known.append
  right
  intro c found
  exact Lexer.isNumberPart_of_isBlank (blank c (List.mem_of_mem_head? found))

/-- Where a float has a point behind it that was not reported, all of the float was not. -/
theorem le_start {lexeme : Lexeme} {tail : List Char} (shape : lexeme.Shape)
    (known : Reported reported before (lexeme.text ++ lexeme.rest))
    (float : lexeme.kind = .floatLiteral) (point : lexeme.rest = '.' :: tail)
    (unreported : reported ≤ utf8Size before + utf8Size lexeme.text) :
    reported ≤ utf8Size before := by
  rcases known with unread | run
  · exact unread
  · have filled := Lexeme.fragments_pos point
    rw [shape.takeWhile_isNumberPart float, Text.utf8Size_append] at run
    omega

/-- The fragments behind a float are reported together. -/
theorem of_fragments (lexeme : Lexeme) :
    Reported (utf8Size before + utf8Size lexeme.text + utf8Size lexeme.fragments)
      (before ++ lexeme.text) lexeme.rest := by
  right
  rw [Text.utf8Size_append, Lexeme.fragments]

end Reported

/-! ### Runs of fragments -/

/-- A float with a point behind it, and where it stands: the front of a run of fragments. -/
structure FragmentRun where
  start : Nat
  front : Lexeme

namespace FragmentRun

/-- The run as far as digits and points go. -/
def text (run : FragmentRun) : List Char :=
  run.front.text ++ run.front.fragments

def span (run : FragmentRun) : Span where
  start := run.start
  stop := run.start + utf8Size run.text
  start_le_stop := Nat.le_add_right _ _

/-- The report of the run. -/
def finding (run : FragmentRun) (file : FileId) : Diagnostic :=
  LexError.toDiagnostic
    { span := run.front.pointAfter run.start
      problem := .ofFragments run.front.text run.front.fragments } file

/-- The run is there: in the text, and at the front of it in the tokens. -/
structure Stands (run : FragmentRun) (text : List Char) (tokens : List Token) : Prop where
  shape : run.front.Shape
  float : run.front.kind = .floatLiteral
  point : ∃ tail, run.front.rest = '.' :: tail
  place : ∃ before, text = before ++ (run.front.text ++ run.front.rest) ∧
    utf8Size before = run.start
  float_mem : run.front.tokenAt run.start ∈ tokens
  dot_mem : ∃ dot ∈ tokens, dot.kind = .symbol .dot ∧
    dot.span = run.front.pointAfter run.start

/-- Further tokens do not matter. -/
theorem Stands.cons {run : FragmentRun} {text : List Char} {tokens : List Token}
    (stands : run.Stands text tokens) (token : Token) : run.Stands text (token :: tokens) := by
  obtain ⟨dot, member, isDot⟩ := stands.dot_mem
  exact { stands with
    float_mem := List.mem_cons_of_mem _ stands.float_mem
    dot_mem := ⟨dot, List.mem_cons_of_mem _ member, isDot⟩ }

end FragmentRun

/-- A float and a point right behind it. -/
structure IsJoint (tokens : List Token) (float dot : Token) : Prop where
  float_mem : float ∈ tokens
  float_kind : float.kind = .floatLiteral
  dot_mem : dot ∈ tokens
  dot_kind : dot.kind = .symbol .dot
  adjacent : float.span.stop = dot.span.start

/-- Both parts of a joint lie in a span. -/
def Span.Holds (span : Span) (float dot : Token) : Prop :=
  span.start ≤ float.span.start ∧ dot.span.stop ≤ span.stop

/-- A joint begins with the first token or lies behind it. -/
theorem IsJoint.of_cons {token float dot : Token} {tokens : List Token}
    (joint : IsJoint (token :: tokens) float dot)
    (filled : token.span.start < token.span.stop)
    (behind : ∀ other ∈ tokens, token.span.stop ≤ other.span.start) :
    (float = token ∧ dot ∈ tokens) ∨ IsJoint tokens float dot := by
  rcases List.mem_cons.mp joint.dot_mem with same | dotMember
  · rcases List.mem_cons.mp joint.float_mem with same' | floatMember
    · have kind := joint.float_kind
      rw [same', ← same, joint.dot_kind] at kind
      cases kind
    · have later := behind float floatMember
      have order := float.span.start_le_stop
      have adjacent := joint.adjacent
      rw [same] at adjacent
      omega
  · rcases List.mem_cons.mp joint.float_mem with same | floatMember
    · exact Or.inl ⟨same, dotMember⟩
    · exact Or.inr { joint with float_mem := floatMember, dot_mem := dotMember }

namespace Run

variable {file : FileId} {reported : Nat} {before text : List Char} {tokens : List Token}
  {found : List Diagnostic}

/-- A token that is a symbol has its spelling. -/
theorem text_of_symbol (run : Run file reported before text tokens found) :
    ∀ token ∈ tokens, ∀ sign, token.kind = .symbol sign → token.text = sign.spelling := by
  intro token member sign kind
  rcases run.eq_endOfFile_or_exists_shape token member with
    ⟨offset, rfl⟩ | ⟨lexeme, start, shape, rfl⟩
  · cases kind
  · rw [Lexeme.text_tokenAt, shape.text_of_symbol kind, String.ofList_toList]

/-- Where the text begins with a point, the point is the first token, and there is nothing to report
    about it. -/
theorem of_point {tail : List Char}
    (run : Run file reported before ('.' :: tail) tokens found) :
    ∃ later, tokens = Lexeme.tokenAt { kind := .symbol .dot, text := ['.'], rest := tail }
        (utf8Size before) :: later ∧
      Run file reported (before ++ ['.']) tail later found := by
  cases run with
  | finish blank =>
      exact absurd (blank '.' (List.mem_cons_self ..)) (by decide)
  | @step _ _ _ _ blanks lexeme error later _ split blank shape verdict more =>
      cases blanks with
      | cons c blanks =>
          cases split
          exact absurd (blank '.' (List.mem_cons_self ..)) (by decide)
      | nil =>
          have point : Lexeme.Shape { kind := .symbol .dot, text := ['.'], rest := tail } :=
            .single rfl fun _ _ => rfl
          obtain rfl := shape.unique point split.symm
          rw [List.append_nil] at more
          cases verdict with
          | unexpected kind => cases kind
          | fragments kind => cases kind
          | quiet => exact ⟨later, rfl, more⟩

/-- Where the first token can be a point, the text begins with one. -/
theorem point_of_dot (run : Run file reported before text tokens found) {dot : Token}
    (member : dot ∈ tokens) (kind : dot.kind = .symbol .dot)
    (start : dot.span.start = utf8Size before) :
    (∃ tail, text = '.' :: tail) ∧ dot.span.stop = utf8Size before + 1 := by
  obtain ⟨front, back, split, size, stop⟩ :=
    Text.slice?_eq_some_iff.mp (run.slice?_eq dot member)
  rw [run.text_of_symbol dot member .dot kind] at split stop
  rw [List.append_assoc] at split
  have cut := Text.append_inj_of_utf8Size split (by rw [size, start])
  rw [start] at stop
  exact ⟨⟨back, cut.2⟩, stop.symm⟩

end Run

/-! ### Findings and runs -/

/-- The findings about runs of fragments. -/
def malformedFloats (found : List Diagnostic) : List Diagnostic :=
  found.filter fun diagnostic => diagnostic.code == some .malformedFloat

theorem malformedFloats_append (first second : List Diagnostic) :
    malformedFloats (first ++ second) = malformedFloats first ++ malformedFloats second :=
  List.filter_append _ _

/-- The findings about fragments are those of runs that stand in the text one behind the other, and
    every joint lies in one of them or was reported before. -/
structure Accounts (file : FileId) (reported : Nat) (text : List Char) (tokens : List Token)
    (found : List Diagnostic) (runs : List FragmentRun) : Prop where
  findings : malformedFloats found = runs.map (·.finding file)
  stands : ∀ run ∈ runs, run.Stands text tokens
  behind : ∀ run ∈ runs, reported ≤ run.start
  ordered : runs.Pairwise fun first second => first.span.stop ≤ second.span.start
  joints : ∀ float dot, IsJoint tokens float dot →
    dot.span.stop ≤ reported ∨ ∃ run ∈ runs, run.span.Holds float dot

namespace Accounts

variable {file : FileId} {reported : Nat} {text : List Char} {tokens : List Token}
  {found : List Diagnostic} {runs : List FragmentRun}

/-- A token that begins no run: what is found at it is about something else, and a joint that it
    begins was reported before. -/
theorem skip {token : Token} {here : List Diagnostic}
    (accounts : Accounts file reported text tokens found runs)
    (filled : token.span.start < token.span.stop)
    (behind : ∀ other ∈ tokens, token.span.stop ≤ other.span.start)
    (quiet : malformedFloats here = [])
    (covered : ∀ dot, IsJoint (token :: tokens) token dot → dot ∈ tokens →
      dot.span.stop ≤ reported) :
    Accounts file reported text (token :: tokens) (here ++ found) runs := by
  constructor
  · rw [malformedFloats_append, quiet, accounts.findings, List.nil_append]
  · intro run member
    exact (accounts.stands run member).cons token
  · exact accounts.behind
  · exact accounts.ordered
  · intro float dot joint
    rcases joint.of_cons filled behind with ⟨rfl, dotMember⟩ | later
    · exact Or.inl (covered dot joint dotMember)
    · exact accounts.joints float dot later

/-- A token that begins a run, which is reported with all of its fragments. -/
theorem report {run : FragmentRun}
    (accounts : Accounts file run.span.stop text tokens found runs)
    (stands : run.Stands text (run.front.tokenAt run.start :: tokens))
    (unreported : reported ≤ run.start)
    (behind : ∀ other ∈ tokens, run.start + utf8Size run.front.text ≤ other.span.start)
    (covered : ∀ dot ∈ tokens, dot.kind = .symbol .dot →
      dot.span.start = run.start + utf8Size run.front.text →
      dot.span.stop ≤ run.span.stop) :
    Accounts file reported text (run.front.tokenAt run.start :: tokens)
      (run.finding file :: found) (run :: runs) := by
  have filled : run.start < run.start + utf8Size run.front.text :=
    Nat.lt_add_of_pos_right (Text.utf8Size_pos stands.shape.text_ne_nil)
  have order : run.start ≤ run.span.stop := run.span.start_le_stop
  constructor
  · have rest := accounts.findings
    simp only [malformedFloats] at rest ⊢
    rw [List.filter_cons_of_pos (by rfl), rest, List.map_cons]
  · intro other member
    rcases List.mem_cons.mp member with rfl | member
    · exact stands
    · exact (accounts.stands other member).cons _
  · intro other member
    rcases List.mem_cons.mp member with rfl | member
    · exact unreported
    · exact Nat.le_trans unreported (Nat.le_trans order (accounts.behind other member))
  · exact List.pairwise_cons.mpr ⟨accounts.behind, accounts.ordered⟩
  · intro float dot joint
    right
    rcases joint.of_cons filled behind with ⟨rfl, dotMember⟩ | later
    · refine ⟨run, List.mem_cons_self .., Nat.le_refl _, ?_⟩
      exact covered dot dotMember joint.dot_kind joint.adjacent.symm
    · rcases accounts.joints float dot later with inRun | ⟨other, member, holds⟩
      · have start := behind float later.float_mem
        exact ⟨run, List.mem_cons_self .., Nat.le_trans (Nat.le_of_lt filled) start, inRun⟩
      · exact ⟨other, List.mem_cons_of_mem _ member, holds⟩

end Accounts

namespace Run

variable {file : FileId} {reported : Nat} {front : List Char} {lexeme : Lexeme} {tail : List Char}
  {tokens : List Token} {found : List Diagnostic}

/-- A float with a point behind it is the front of a run of fragments. -/
theorem stands_of_point (more : Run file reported (front ++ lexeme.text) lexeme.rest tokens found)
    (shape : lexeme.Shape) (float : lexeme.kind = .floatLiteral)
    (point : lexeme.rest = '.' :: tail) :
    FragmentRun.Stands { start := utf8Size front, front := lexeme }
      (front ++ lexeme.text ++ lexeme.rest) (lexeme.tokenAt (utf8Size front) :: tokens) := by
  have pointRun := more
  rw [point] at pointRun
  obtain ⟨later, rfl, -⟩ := pointRun.of_point
  constructor
  · exact shape
  · exact float
  · exact ⟨tail, point⟩
  · exact ⟨front, List.append_assoc .., rfl⟩
  · exact List.mem_cons_self ..
  · refine ⟨_, List.mem_cons_of_mem _ (List.mem_cons_self ..), rfl, ?_⟩
    rw [Text.utf8Size_append]
    rfl

/-- The findings of a run of the lexer account for all joints of its tokens. -/
theorem accounts {before text : List Char} (run : Run file reported before text tokens found)
    (known : Reported reported before text) :
    ∃ runs, Accounts file reported (before ++ text) tokens found runs := by
  induction run with
  | finish =>
      refine ⟨[], rfl, by simp, by simp, List.Pairwise.nil, ?_⟩
      intro float dot joint
      have kind := joint.float_kind
      rw [List.mem_singleton.mp joint.float_mem] at kind
      cases kind
  | @step reported reported' before text blanks lexeme error tokens found split blank shape verdict
      more ih =>
      rw [split] at known
      have here := known.append_blanks blank
      have whole : before ++ text = before ++ blanks ++ lexeme.text ++ lexeme.rest := by
        simp [split]
      rw [whole]
      rw [← Text.utf8Size_append] at verdict ⊢
      generalize before ++ blanks = front at *
      have behind := more.le_start
      have dot_at (dot : Token) (member : dot ∈ tokens) (kind : dot.kind = .symbol .dot) :=
        more.point_of_dot member kind
      rw [Text.utf8Size_append] at behind dot_at
      have filled : utf8Size front < utf8Size front + utf8Size lexeme.text :=
        Nat.lt_add_of_pos_right (Text.utf8Size_pos shape.text_ne_nil)
      -- Only a float with an unreported point begins a run. The tokens of a run that was reported
      -- are cut differently from its fragments, so `Reported` speaks of bytes and not of tokens.
      cases verdict with
      | unexpected kind =>
          obtain ⟨runs, accounts⟩ := ih (here.append shape.isNumberPart_cases)
          refine ⟨runs, accounts.skip filled behind rfl ?_⟩
          intro dot joint
          cases kind.symm.trans joint.float_kind
      | quiet valid covered =>
          obtain ⟨runs, accounts⟩ := ih (here.append shape.isNumberPart_cases)
          refine ⟨runs, accounts.skip filled behind rfl ?_⟩
          intro dot joint member
          obtain ⟨⟨tail, point⟩, stop⟩ := dot_at dot member joint.dot_kind joint.adjacent.symm
          have reportedBefore := covered joint.float_kind tail point
          omega
      | @fragments tail kind point unreported =>
          have runEnd : utf8Size front + utf8Size lexeme.text + utf8Size lexeme.fragments
              = utf8Size front + utf8Size (lexeme.text ++ lexeme.fragments) := by
            rw [Text.utf8Size_append, Nat.add_assoc]
          obtain ⟨runs, accounts⟩ := ih (Reported.of_fragments lexeme)
          rw [runEnd] at accounts
          refine ⟨{ start := utf8Size front, front := lexeme } :: runs,
            accounts.report (more.stands_of_point shape kind point)
              (here.le_start shape kind point unreported) behind ?_⟩
          intro dot member kind start
          have stop := (dot_at dot member kind start).2
          have filledRun := Lexeme.fragments_pos point
          change dot.span.stop ≤ utf8Size front + utf8Size (lexeme.text ++ lexeme.fragments)
          omega

end Run

end FrontEnd
