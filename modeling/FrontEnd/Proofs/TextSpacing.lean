/-
Module: FrontEnd.Proofs.TextSpacing
Layer: Proofs
Purpose: Blanks between tokens. The blanks of a text can be exchanged for others without a change to
  its tokens, as long as some are left wherever some were; and where no tokens are drawn apart
  either, the findings about malformed numbers are worded like before.
Imports: FrontEnd.Proofs.RunTransport
Trusted boundary: none
Main exports: spaced, IsSpacing, KeepsGaps, KeepsJoints, wordings, ReportedTogether,
  Run.exists_spaced, Run.exists_respaced, lex_ignores_spacing
Open obligations: none
-/
import FrontEnd.Proofs.RunTransport

namespace FrontEnd

open Lexer (isBlank isNumberPart)
open Text (utf8Size)

/-! ### Texts with gaps -/

/-- The texts of tokens with gaps: the first gap in front of all tokens, and one more behind each of
    them. -/
def spaced (gaps : Nat → String) : List Token → String
  | [] => gaps 0
  | token :: tokens => gaps 0 ++ token.text ++ spaced (fun index => gaps (index + 1)) tokens

/-- One more gap in front of others. -/
def consGap (gap : String) (gaps : Nat → String) : Nat → String
  | 0 => gap
  | index + 1 => gaps index

/-- Whether a text consists of the texts of tokens and of blank gaps before, between and behind
    them. -/
structure IsSpacing (gaps : Nat → String) (tokens : List Token) (text : String) : Prop where
  text : text = spaced gaps tokens
  blank : ∀ index ≤ tokens.length, ∀ c ∈ (gaps index).toList, isBlank c = true

/-- Tokens that have a gap between them by the one spacing have a gap by the other. -/
def KeepsGaps (count : Nat) (gaps gaps' : Nat → String) : Prop :=
  ∀ index, 0 < index → index < count → gaps index ≠ "" → gaps' index ≠ ""

/-- Tokens that have no gap between them by the one spacing have none by the other. -/
def KeepsJoints (count : Nat) (gaps gaps' : Nat → String) : Prop :=
  ∀ index, 0 < index → index < count → gaps index = "" → gaps' index = ""

theorem toList_spaced_cons (gaps : Nat → String) (token : Token) (tokens : List Token) :
    (spaced gaps (token :: tokens)).toList = (gaps 0).toList ++
      (token.text.toList ++ (spaced (fun index => gaps (index + 1)) tokens).toList) := by
  rw [spaced, String.toList_append, String.toList_append, List.append_assoc]

section

variable {gaps gaps' : Nat → String} {token : Token} {tokens : List Token}

/-- The gaps behind the first token. -/
theorem blank_tail
    (blank : ∀ index ≤ (token :: tokens).length, ∀ c ∈ (gaps index).toList, isBlank c = true) :
    ∀ index ≤ tokens.length, ∀ c ∈ (gaps (index + 1)).toList, isBlank c = true :=
  fun index inside => blank (index + 1) (Nat.succ_le_succ inside)

theorem KeepsGaps.tail (keeps : KeepsGaps (token :: tokens).length gaps gaps') :
    ∀ index < tokens.length, gaps (index + 1) ≠ "" → gaps' (index + 1) ≠ "" :=
  fun index inside => keeps (index + 1) (Nat.succ_pos index) (Nat.succ_lt_succ inside)

theorem KeepsJoints.tail (keeps : KeepsJoints (token :: tokens).length gaps gaps') :
    ∀ index < tokens.length, gaps (index + 1) = "" → gaps' (index + 1) = "" :=
  fun index inside => keeps (index + 1) (Nat.succ_pos index) (Nat.succ_lt_succ inside)

/-- With other gaps a text begins with a blank or like before, unless its first gap was closed. -/
theorem head_spaced (filled : ∀ token ∈ tokens, token.text ≠ "")
    (blank : ∀ index ≤ tokens.length, ∀ c ∈ (gaps' index).toList, isBlank c = true)
    (keeps : tokens ≠ [] → gaps 0 ≠ "" → gaps' 0 ≠ "") :
    ∀ d ∈ (spaced gaps' tokens).toList.head?,
      d ∈ (spaced gaps tokens).toList.head? ∨ isBlank d = true := by
  intro d head
  have first := blank 0 (Nat.zero_le _)
  cases tokens with
  | nil =>
      exact Or.inr (first d (List.mem_of_mem_head? head))
  | cons token tokens =>
      rw [toList_spaced_cons] at head ⊢
      by_cases closed : gaps' 0 = ""
      · left
        have closedBefore : gaps 0 = "" := by
          by_contra opened
          exact keeps (List.cons_ne_nil _ _) opened closed
        obtain ⟨c, letters, text⟩ := List.exists_cons_of_ne_nil
          (String.toList_eq_nil_iff.not.mpr (filled token (List.mem_cons_self ..)))
        rw [closed, text] at head
        rw [closedBefore, text]
        exact head
      · right
        obtain ⟨c, blanks, gap⟩ := List.exists_cons_of_ne_nil
          (String.toList_eq_nil_iff.not.mpr closed)
        rw [gap] at head first
        rw [List.cons_append] at head
        obtain rfl := Option.some.inj head
        exact first _ (List.mem_cons_self ..)

/-- No digits and points stand at the front of blanks. -/
theorem takeWhile_isNumberPart_of_blank {gap rest : List Char} (filled : gap ≠ [])
    (blank : ∀ c ∈ gap, isBlank c = true) : (gap ++ rest).takeWhile isNumberPart = [] := by
  obtain ⟨c, blanks, rfl⟩ := List.exists_cons_of_ne_nil filled
  have outside := Lexer.isNumberPart_of_isBlank (blank c (List.mem_cons_self ..))
  rw [List.cons_append, List.takeWhile_cons, outside]
  rfl

/-- With other gaps a text has the same digits and points at its front, if the gaps are open and
    closed like before. -/
theorem takeWhile_spaced
    (blank : ∀ index ≤ tokens.length, ∀ c ∈ (gaps index).toList, isBlank c = true)
    (blank' : ∀ index ≤ tokens.length, ∀ c ∈ (gaps' index).toList, isBlank c = true)
    (same : ∀ index < tokens.length, gaps index = "" ↔ gaps' index = "") :
    (spaced gaps' tokens).toList.takeWhile isNumberPart
      = (spaced gaps tokens).toList.takeWhile isNumberPart := by
  induction tokens generalizing gaps gaps' with
  | nil =>
      have none {gap : String} (blank : ∀ c ∈ gap.toList, isBlank c = true) :
          gap.toList.takeWhile isNumberPart = [] := by
        by_cases empty : gap.toList = []
        · rw [empty]
          rfl
        · rw [← List.append_nil gap.toList]
          exact takeWhile_isNumberPart_of_blank empty blank
      rw [spaced, spaced, none (blank 0 (Nat.zero_le _)), none (blank' 0 (Nat.zero_le _))]
  | cons token tokens ih =>
      have first := same 0 (Nat.succ_pos _)
      rw [toList_spaced_cons, toList_spaced_cons]
      by_cases closed : gaps 0 = ""
      · have rest := ih (blank_tail blank) (blank_tail blank')
          fun index inside => same (index + 1) (Nat.succ_lt_succ inside)
        rw [closed, first.mp closed, String.toList_empty, List.nil_append, List.nil_append,
          List.takeWhile_append, List.takeWhile_append, rest]
      · have opened := first.not.mp closed
        rw [takeWhile_isNumberPart_of_blank (String.toList_eq_nil_iff.not.mpr closed)
            (blank 0 (Nat.zero_le _)),
          takeWhile_isNumberPart_of_blank (String.toList_eq_nil_iff.not.mpr opened)
            (blank' 0 (Nat.zero_le _))]

end

/-! ### What was reported of two texts -/

/-- What was reported of two texts, each behind a text of its own: nothing ahead of either, or the
    same digits and points at the front of both. -/
def ReportedTogether (reported : Nat) (before text : List Char) (reported' : Nat)
    (before' text' : List Char) : Prop :=
  (reported ≤ utf8Size before ∧ reported' ≤ utf8Size before') ∨
    ∃ run, text.takeWhile isNumberPart = run ∧ text'.takeWhile isNumberPart = run ∧
      reported = utf8Size before + utf8Size run ∧ reported' = utf8Size before' + utf8Size run

namespace ReportedTogether

variable {reported reported' : Nat} {before before' rest rest' : List Char}

/-- Whether anything ahead was reported is the same for both texts. -/
theorem le_iff {text text' : List Char}
    (together : ReportedTogether reported before text reported' before' text') :
    reported ≤ utf8Size before ↔ reported' ≤ utf8Size before' := by
  rcases together with ⟨unread, unread'⟩ | ⟨run, -, -, rfl, rfl⟩
  · exact ⟨fun _ => unread', fun _ => unread⟩
  · omega

/-- Reading on over a piece of both texts that is all digits and points, or begins with neither. -/
theorem append {part : List Char}
    (together : ReportedTogether reported before (part ++ rest) reported' before' (part ++ rest'))
    (uniform : (∀ c ∈ part, isNumberPart c = true) ∨
      ∀ c ∈ part.head?, isNumberPart c = false) :
    ReportedTogether reported (before ++ part) rest reported' (before' ++ part) rest' := by
  rcases together with ⟨unread, unread'⟩ | ⟨run, front, front', rfl, rfl⟩
  · left
    simp only [Text.utf8Size_append]
    omega
  · rcases uniform with inside | outside
    · right
      rw [List.takeWhile_append_of_pos inside] at front front'
      subst front
      refine ⟨_, rfl, List.append_cancel_left front', ?_, ?_⟩
      · simp only [Text.utf8Size_append, Nat.add_assoc]
      · simp only [Text.utf8Size_append, Nat.add_assoc]
    · cases part with
      | nil =>
          right
          exact ⟨run, front, front', by rw [List.append_nil], by rw [List.append_nil]⟩
      | cons c part =>
          left
          have other : isNumberPart c = false := outside c rfl
          rw [List.cons_append, List.takeWhile_cons_of_neg (by simp [other])] at front
          subst front
          simp only [Text.utf8Size_append, Text.utf8Size_nil]
          omega

/-- Reading on over the blanks of each text. -/
theorem append_blanks {gap gap' : List Char}
    (together : ReportedTogether reported before (gap ++ rest) reported' before' (gap' ++ rest'))
    (blank : ∀ c ∈ gap, isBlank c = true) (blank' : ∀ c ∈ gap', isBlank c = true) :
    ReportedTogether reported (before ++ gap) rest reported' (before' ++ gap') rest' := by
  -- An open gap ends all that was reported, so both gaps are closed or nothing ahead was reported.
  have unread {run : List Char} (none : run = [])
      (first : reported = utf8Size before + utf8Size run)
      (second : reported' = utf8Size before' + utf8Size run) :
      ReportedTogether reported (before ++ gap) rest reported' (before' ++ gap') rest' := by
    left
    rw [none, Text.utf8Size_nil] at first second
    simp only [Text.utf8Size_append]
    omega
  rcases together with ⟨behind, behind'⟩ | ⟨run, front, front', first, second⟩
  · left
    simp only [Text.utf8Size_append]
    omega
  · by_cases closed : gap = []
    · by_cases closed' : gap' = []
      · right
        rw [closed, List.nil_append] at front
        rw [closed', List.nil_append] at front'
        rw [closed, closed', List.append_nil, List.append_nil]
        exact ⟨run, front, front', first, second⟩
      · rw [takeWhile_isNumberPart_of_blank closed' blank'] at front'
        exact unread front'.symm first second
    · rw [takeWhile_isNumberPart_of_blank closed blank] at front
      exact unread front.symm first second

end ReportedTogether

/-! ### Wordings -/

/-- What a token is, wherever it stands. -/
def Token.content (token : Token) : TokenKind × String :=
  (token.kind, token.text)

/-- The messages of the findings with a code, and the advice that goes with them. -/
def wordings (code : ErrorCode) (found : List Diagnostic) : List (String × Option String) :=
  (found.filter (·.code == some code)).map fun finding => (finding.message, finding.help)

theorem wordings_append (code : ErrorCode) (first second : List Diagnostic) :
    wordings code (first ++ second) = wordings code first ++ wordings code second := by
  rw [wordings, List.filter_append, List.map_append, wordings, wordings]

theorem wordings_toDiagnostic (code : ErrorCode) (error : LexError) (file : FileId) :
    wordings code [error.toDiagnostic file] =
      if error.problem.code = code then [(error.problem.message, error.problem.help)] else [] := by
  simp only [wordings, LexError.toDiagnostic, List.filter_cons, List.filter_nil, beq_iff_eq,
    Option.some.injEq]
  split
  · rfl
  · rfl

/-- How errors are worded depends on the problems alone. -/
theorem wordings_eq_of_problem_eq {error error' : Option LexError} (code : ErrorCode)
    (file : FileId) (same : error'.map (·.problem) = error.map (·.problem)) :
    wordings code (error'.toList.map (·.toDiagnostic file))
      = wordings code (error.toList.map (·.toDiagnostic file)) := by
  cases error with
  | none =>
      rw [Option.map_eq_none_iff.mp same]
  | some error =>
      obtain ⟨error', rfl, problem⟩ := Option.map_eq_some_iff.mp same
      simp only [Option.toList_some, List.map_cons, List.map_nil, wordings_toDiagnostic, problem]

namespace Lexeme

/-- A blank continues no lexeme. -/
theorem isBreak_of_isBlank {d : Char} (blank : isBlank d = true) : IsBreak d where
  notDigit := by
    by_contra digit
    rw [Lexer.isBlank_of_isDigit (by simpa using digit)] at blank
    cases blank
  notPoint := by
    rintro rfl
    exact absurd blank (by decide)
  notWordPart := by
    by_contra part
    rw [Lexer.isBlank_of_isWordPart (by simpa using part)] at blank
    cases blank
  notPair c := by
    cases known : Symbol.ofPair? c d with
    | none => rfl
    | some sign =>
        rw [(Symbol.isMark_of_ofPair? known).2.2.2.2] at blank
        cases blank

/-- The blanks before a lexeme end where its text begins. -/
theorem Shape.gap_inj {lexeme : Lexeme} {gap gap' rest : List Char} (shape : lexeme.Shape)
    (blank : ∀ c ∈ gap, isBlank c = true) (blank' : ∀ c ∈ gap', isBlank c = true)
    (same : gap ++ (lexeme.text ++ lexeme.rest) = gap' ++ (lexeme.text ++ rest)) :
    gap = gap' ∧ lexeme.rest = rest := by
  have visible (rest : List Char) : ∀ c ∈ (lexeme.text ++ rest).head?, isBlank c = false := by
    obtain ⟨c, letters, front⟩ := List.exists_cons_of_ne_nil shape.text_ne_nil
    rw [front]
    rintro d ⟨⟩
    exact shape.isBlank_eq_false c (by rw [front]; exact List.mem_cons_self ..)
  obtain ⟨gaps, behind⟩ :=
    Text.append_inj_of_stop blank blank' (visible lexeme.rest) (visible rest) same
  exact ⟨gaps, List.append_cancel_left behind⟩

/-- A lexeme in front of tokens with gaps is one as well in front of them with other gaps, unless
    the first gap was closed. -/
theorem Shape.respaced {lexeme : Lexeme} {gaps gaps' : Nat → String} {tokens : List Token}
    (shape : lexeme.Shape) (rest : lexeme.rest = (spaced gaps tokens).toList)
    (filled : ∀ token ∈ tokens, token.text ≠ "")
    (blank' : ∀ index ≤ tokens.length, ∀ c ∈ (gaps' index).toList, isBlank c = true)
    (keeps : ∀ index < tokens.length, gaps index ≠ "" → gaps' index ≠ "") :
    Shape { lexeme with rest := (spaced gaps' tokens).toList } := by
  apply shape.with_rest
  intro d head
  have first := head_spaced filled blank'
    (fun more => keeps 0 (List.length_pos_iff.mpr more)) d head
  rw [rest]
  exact first.imp_right isBreak_of_isBlank

variable {lexeme : Lexeme} {rest : List Char} {start start' reported reported' after after' : Nat}
  {error error' : Option LexError}

/-- Whatever stands behind a lexeme, it is an unexpected character or not. -/
theorem Verdict.wordings_unexpected (file : FileId)
    (verdict : lexeme.Verdict start reported error after)
    (elsewhere : Verdict { lexeme with rest } start' reported' error' after') :
    wordings .unexpectedCharacter (error'.toList.map (·.toDiagnostic file))
      = wordings .unexpectedCharacter (error.toList.map (·.toDiagnostic file)) := by
  cases verdict with
  | unexpected kind text =>
      cases elsewhere with
      | unexpected _ text' =>
          cases text.symm.trans text'
          rfl
      | fragments kind' => cases kind.symm.trans kind'
      | quiet kind' => exact absurd kind kind'
  | fragments kind =>
      cases elsewhere with
      | unexpected kind' => cases kind.symm.trans kind'
      | fragments => rfl
      | quiet => rfl
  | quiet kind =>
      cases elsewhere with
      | unexpected kind' => exact absurd kind' kind
      | fragments => rfl
      | quiet => rfl

/-- With the same fragments behind a lexeme, and the same of them reported, the problem is the
    same. -/
theorem Verdict.respaced {front front' : List Char}
    (verdict : lexeme.Verdict (utf8Size front) reported error after)
    (elsewhere : Verdict { lexeme with rest } (utf8Size front') reported' error' after')
    (together : ReportedTogether reported (front ++ lexeme.text) lexeme.rest reported'
      (front' ++ lexeme.text) rest)
    (same : rest.takeWhile isNumberPart = lexeme.fragments) :
    error'.map (·.problem) = error.map (·.problem) ∧
      ReportedTogether after (front ++ lexeme.text) lexeme.rest after'
        (front' ++ lexeme.text) rest := by
  have unreported_iff := together.le_iff
  rw [Text.utf8Size_append, Text.utf8Size_append] at unreported_iff
  have sameFragments : Lexeme.fragments { lexeme with rest } = lexeme.fragments := same
  cases verdict with
  | unexpected kind text =>
      cases elsewhere with
      | unexpected _ text' =>
          cases text.symm.trans text'
          exact ⟨rfl, together⟩
      | fragments kind' => cases kind.symm.trans kind'
      | quiet kind' => exact absurd kind kind'
  | @fragments tail kind point unreported =>
      cases elsewhere with
      | unexpected kind' => cases kind.symm.trans kind'
      | fragments =>
          rw [sameFragments]
          refine ⟨rfl, Or.inr ⟨lexeme.fragments, rfl, same, ?_, ?_⟩⟩
          · rw [Text.utf8Size_append]
          · rw [Text.utf8Size_append]
      | quiet _ covered =>
          obtain ⟨tail', point'⟩ := (head?_fragments { lexeme with rest }).mp
            (by rw [sameFragments]; exact (head?_fragments lexeme).mpr ⟨tail, point⟩)
          have reportedBefore : utf8Size front' + utf8Size lexeme.text < reported' :=
            covered kind tail' point'
          omega
  | quiet kind covered =>
      cases elsewhere with
      | unexpected kind' => exact absurd kind' kind
      | @fragments tail' kind' point' unreported' =>
          obtain ⟨tail, point⟩ := (head?_fragments lexeme).mp
            (by rw [← sameFragments]; exact (head?_fragments _).mpr ⟨tail', point'⟩)
          have reportedBefore := covered kind' tail point
          have unreported := unreported_iff.mpr unreported'
          omega
      | quiet => exact ⟨rfl, together⟩

end Lexeme

/-! ### Runs over texts with gaps -/

namespace Run

variable {file : FileId} {reported : Nat} {before text : List Char} {tokens all : List Token}
  {last : Token} {found : List Diagnostic}

/-- A text consists of its tokens without the end, which are not empty, and of blanks. -/
theorem exists_spaced (run : Run file reported before text all found)
    (split : all = tokens ++ [last]) :
    ∃ gaps, text = (spaced gaps tokens).toList ∧ (∀ token ∈ tokens, token.text ≠ "") ∧
      ∀ index ≤ tokens.length, ∀ c ∈ (gaps index).toList, isBlank c = true := by
  induction run generalizing tokens with
  | @finish _ _ blanks blank =>
      cases tokens with
      | nil =>
          exact ⟨fun _ => String.ofList blanks, by simp [spaced], by simp, by simpa using blank⟩
      | cons token tokens =>
          simp at split
  | @step _ _ before text blanks lexeme error later found textSplit blank shape verdict more ih =>
      cases tokens with
      | nil =>
          obtain ⟨front, rfl, -⟩ := more.eq_append_endOfFile
          simp at split
      | cons token tokens =>
          obtain ⟨rfl, rest⟩ := List.cons.inj split
          obtain ⟨gaps, restText, filled, blankRest⟩ := ih rest
          refine ⟨consGap (String.ofList blanks) gaps, ?_, ?_, ?_⟩
          · rw [textSplit, toList_spaced_cons, Lexeme.text_tokenAt, String.toList_ofList]
            simp only [consGap, String.toList_ofList, ← restText]
          · refine List.forall_mem_cons.mpr ⟨?_, filled⟩
            simpa using shape.text_ne_nil
          · rintro (_ | index) inside
            · simpa [consGap] using blank
            · exact blankRest index (Nat.le_of_succ_le_succ inside)

/-- With other gaps, open wherever they were open, a text has the same tokens and unexpected
    characters; and with gaps that are closed as well wherever they were closed, it has the same
    malformed numbers. -/
theorem exists_respaced {gaps gaps' : Nat → String}
    (run : Run file reported before text all found) (split : all = tokens ++ [last])
    (spacing : text = (spaced gaps tokens).toList) (filled : ∀ token ∈ tokens, token.text ≠ "")
    (blank : ∀ index ≤ tokens.length, ∀ c ∈ (gaps index).toList, isBlank c = true)
    (blank' : ∀ index ≤ tokens.length, ∀ c ∈ (gaps' index).toList, isBlank c = true)
    (keeps : KeepsGaps tokens.length gaps gaps') (reported' : Nat) (before' : List Char) :
    ∃ tokens' last' found',
      Run file reported' before' (spaced gaps' tokens).toList (tokens' ++ [last']) found' ∧
      tokens'.map Token.content = tokens.map Token.content ∧
      wordings .unexpectedCharacter found' = wordings .unexpectedCharacter found ∧
      (KeepsJoints tokens.length gaps gaps' →
        ReportedTogether reported before text reported' before' (spaced gaps' tokens).toList →
        wordings .malformedFloat found' = wordings .malformedFloat found) := by
  induction run generalizing tokens gaps gaps' reported' before' with
  | finish =>
      cases tokens with
      | nil =>
          exact ⟨[], _, [], .finish (blank' 0 (Nat.le_refl 0)), rfl, rfl, fun _ _ => rfl⟩
      | cons token tokens =>
          simp at split
  | @step reported after before text blanks lexeme error later found textSplit blanksBlank shape
      verdict more ih =>
      cases tokens with
      | nil =>
          obtain ⟨front, rfl, -⟩ := more.eq_append_endOfFile
          simp at split
      | cons token tokens =>
          obtain ⟨rfl, rest⟩ := List.cons.inj split
          rw [toList_spaced_cons, Lexeme.text_tokenAt, String.toList_ofList] at spacing
          -- The blanks that the lexer skips are the first gap.
          obtain ⟨rfl, restSpacing⟩ :=
            shape.gap_inj blanksBlank (blank 0 (Nat.zero_le _)) (textSplit.symm.trans spacing)
          let respaced : Lexeme :=
            { lexeme with rest := (spaced (fun index => gaps' (index + 1)) tokens).toList }
          have shape' : respaced.Shape :=
            shape.respaced restSpacing (List.forall_mem_cons.mp filled).2 (blank_tail blank')
              keeps.tail
          obtain ⟨error', after', verdict'⟩ :=
            shape'.exists_verdict (utf8Size before' + utf8Size (gaps' 0).toList) reported'
          obtain ⟨tokens', last', found', run', contents, unexpected, malformed⟩ :=
            ih rest restSpacing (List.forall_mem_cons.mp filled).2 (blank_tail blank)
              (blank_tail blank') (fun index _ inside => keeps.tail index inside) after'
              (before' ++ (gaps' 0).toList ++ lexeme.text)
          have whole : (spaced gaps' (lexeme.tokenAt
                (utf8Size before + utf8Size (gaps 0).toList) :: tokens)).toList
              = (gaps' 0).toList ++ (lexeme.text
                ++ (spaced (fun index => gaps' (index + 1)) tokens).toList) := by
            rw [toList_spaced_cons, Lexeme.text_tokenAt, String.toList_ofList]
          refine ⟨respaced.tokenAt (utf8Size before' + utf8Size (gaps' 0).toList) :: tokens', last',
            _, .step whole (blank' 0 (Nat.zero_le _)) shape' verdict' run', ?_, ?_, ?_⟩
          · rw [List.map_cons, List.map_cons, contents]
            rfl
          · rw [wordings_append, wordings_append, unexpected,
              verdict.wordings_unexpected file verdict']
          · intro joints together
            have sameFragments : respaced.fragments = lexeme.fragments := by
              rw [Lexeme.fragments, Lexeme.fragments, restSpacing]
              exact takeWhile_spaced (blank_tail blank) (blank_tail blank') fun index inside =>
                ⟨joints.tail index inside, not_imp_not.mp (keeps.tail index inside)⟩
            rw [textSplit, whole] at together
            have here := (together.append_blanks (blank 0 (Nat.zero_le _))
              (blank' 0 (Nat.zero_le _))).append shape.isNumberPart_cases
            rw [← Text.utf8Size_append] at verdict verdict'
            obtain ⟨problem, afterwards⟩ := verdict.respaced verdict' here sameFragments
            rw [wordings_append, wordings_append, wordings_eq_of_problem_eq _ file problem,
              malformed (fun index _ inside => joints.tail index inside) afterwards]

end Run

/-! ### Lexing -/

/-- Blanks within lines mean nothing: a text consists of its tokens and of blank gaps; and a text of
    the same tokens with other gaps, of which none between two tokens is closed, has the same
    tokens, and the same wordings of all findings about unexpected characters. If no gap between two
    tokens is opened either, the wordings of the findings about malformed numbers are the same,
    too. -/
theorem lex_ignores_spacing (file : FileId) (text : String)
    (fits : text.utf8ByteSize ≤ Offset.limit) :
    ∃ tokens found,
      Lexes file text (tokens ++ [.endOfFile text.utf8ByteSize]) found ∧
      (∀ token ∈ tokens, token.kind ≠ .endOfFile) ∧
      (∃ gaps, IsSpacing gaps tokens text) ∧
      ∀ gaps gaps' text', IsSpacing gaps tokens text → IsSpacing gaps' tokens text' →
        KeepsGaps tokens.length gaps gaps' → text'.utf8ByteSize ≤ Offset.limit →
        ∃ tokens' found',
          Lexes file text' (tokens' ++ [.endOfFile text'.utf8ByteSize]) found' ∧
          tokens'.map Token.content = tokens.map Token.content ∧
          wordings .unexpectedCharacter found' = wordings .unexpectedCharacter found ∧
          (KeepsJoints tokens.length gaps gaps' →
            wordings .malformedFloat found' = wordings .malformedFloat found) := by
  obtain ⟨all, found, -, run⟩ := lex_run file .empty fits
  obtain ⟨tokens, rfl, proper⟩ := run.eq_append_endOfFile
  obtain ⟨gaps, spacing, filled, blank⟩ := run.exists_spaced rfl
  have lexed := lexes_of_run fits run
  rw [Text.utf8Size_nil, Nat.zero_add, ← Text.utf8ByteSize_eq] at lexed
  refine ⟨tokens, found, lexed, fun token member => (proper token member).1,
    ⟨gaps, String.toList_inj.mp spacing, blank⟩, ?_⟩
  rintro gaps gaps' _ ⟨rfl, blank⟩ ⟨rfl, blank'⟩ keeps fits'
  obtain ⟨tokens', last', found', run', contents, unexpected, malformed⟩ :=
    run.exists_respaced rfl rfl filled blank blank' keeps 0 []
  obtain ⟨front, split, -⟩ := run'.eq_append_endOfFile
  obtain ⟨rfl, ends⟩ := List.append_inj' split rfl
  have lexed' := lexes_of_run fits' run'
  rw [ends, Text.utf8Size_nil, Nat.zero_add, ← Text.utf8ByteSize_eq] at lexed'
  exact ⟨tokens', found', lexed', contents, unexpected, fun joints =>
    malformed joints (Or.inl ⟨Nat.le_refl 0, Nat.le_refl 0⟩)⟩

/-- The tokens of `x= 1.2.3`, a tab and `@ &`: the malformed number has three fragments, and the
    last two characters begin no tokens. -/
def spacedTokens : List Token :=
  [Lexeme.tokenAt ⟨.identifier, "x".toList, []⟩ 0,
    Lexeme.tokenAt ⟨.symbol .equal, "=".toList, []⟩ 1,
    Lexeme.tokenAt ⟨.floatLiteral, "1.2".toList, []⟩ 3,
    Lexeme.tokenAt ⟨.symbol .dot, ".".toList, []⟩ 6,
    Lexeme.tokenAt ⟨.intLiteral, "3".toList, []⟩ 7,
    Lexeme.tokenAt ⟨.invalid, "@".toList, []⟩ 9,
    Lexeme.tokenAt ⟨.invalid, "&".toList, []⟩ 11]

/-- The gaps of that text. -/
def narrowGaps (index : Nat) : String :=
  ["", "", " ", "", "", "\t", " ", ""].getD index ""

/-- Wider gaps with other blanks, also in front of the first token and behind the last one. -/
def wideGaps (index : Nat) : String :=
  ["\t", "", "  ", "", "", " \r", "\x0c ", " "].getD index ""

/-- With the wider gaps, closed where the others are closed, the text has the same tokens, and the
    same findings about the number and about both characters. -/
theorem lex_ignores_spacing_mixed :
    "x= 1.2.3\t@ &".utf8ByteSize ≤ Offset.limit ∧
      IsSpacing narrowGaps spacedTokens "x= 1.2.3\t@ &" ∧
      IsSpacing wideGaps spacedTokens "\tx=  1.2.3 \r@\x0c & " ∧
      KeepsGaps spacedTokens.length narrowGaps wideGaps ∧
      KeepsJoints spacedTokens.length narrowGaps wideGaps ∧
      "\tx=  1.2.3 \r@\x0c & ".utf8ByteSize ≤ Offset.limit ∧
      ∃ found tokens' found',
        Lexes ⟨0⟩ "x= 1.2.3\t@ &" (spacedTokens ++ [.endOfFile 12]) found ∧
        Lexes ⟨0⟩ "\tx=  1.2.3 \r@\x0c & " (tokens' ++ [.endOfFile 17]) found' ∧
        tokens'.map Token.content = spacedTokens.map Token.content ∧
        wordings .unexpectedCharacter found' = wordings .unexpectedCharacter found ∧
        wordings .malformedFloat found' = wordings .malformedFloat found := by
  have fits : "x= 1.2.3\t@ &".utf8ByteSize ≤ Offset.limit := by decide
  have fits' : "\tx=  1.2.3 \r@\x0c & ".utf8ByteSize ≤ Offset.limit := by decide
  have blanks : ∀ index ≤ spacedTokens.length, (narrowGaps index).toList.all isBlank = true ∧
      (wideGaps index).toList.all isBlank = true := by
    decide
  have narrow : IsSpacing narrowGaps spacedTokens "x= 1.2.3\t@ &" :=
    ⟨by decide, fun index inside => List.all_eq_true.mp (blanks index inside).1⟩
  have wide : IsSpacing wideGaps spacedTokens "\tx=  1.2.3 \r@\x0c & " :=
    ⟨by decide, fun index inside => List.all_eq_true.mp (blanks index inside).2⟩
  have sameGaps : ∀ index < spacedTokens.length, 0 < index →
      (narrowGaps index = "" ↔ wideGaps index = "") := by
    decide
  have gaps : KeepsGaps spacedTokens.length narrowGaps wideGaps := fun index positive inside =>
    mt (sameGaps index inside positive).mpr
  have joints : KeepsJoints spacedTokens.length narrowGaps wideGaps :=
    fun index positive inside => (sameGaps index inside positive).mp
  have computed : (lex ⟨0⟩ "x= 1.2.3\t@ &" .empty).toOption.map Prod.fst
      = some (spacedTokens ++ [.endOfFile 12]) := by
    decide +kernel
  obtain ⟨tokens, found, lexed, -, -, respaced⟩ := lex_ignores_spacing ⟨0⟩ _ fits
  obtain ⟨after, same, -⟩ := lexed .empty
  rw [same] at computed
  obtain rfl : tokens = spacedTokens :=
    List.append_cancel_right (Option.some.inj computed)
  obtain ⟨tokens', found', lexed', contents, unexpected, malformed⟩ :=
    respaced narrowGaps wideGaps _ narrow wide gaps fits'
  exact ⟨fits, narrow, wide, gaps, joints, fits', found, tokens', found', lexed, lexed', contents,
    unexpected, malformed joints⟩

end FrontEnd
