/-
Module: FrontEnd.Proofs.OutlinePrinting
Layer: Proofs
Purpose: Printing into sinks that may run full. A print sends one text to the sink, however many
  pieces it sends it in, so a sink with little room holds the front of that text; and a print comes
  back to the depth that it started at, wherever it is cut short.
Imports: FrontEnd.Dump.Node
Trusted boundary: none
Main exports: Sink.write_append, Print.Sends, Outline.textAt, Outline.print_sends, Outline.text_eq,
  Node.textAt_eq, Printer.print_of_room, Printer.print_within_room
Open obligations: none
-/
import FrontEnd.Dump.Node

namespace FrontEnd

/-! ### Pieces of a text -/

/-- Two texts sent one after the other are received like one text. -/
theorem Sink.write_append (sink : Sink) (first second : List Char) :
    sink.write (first ++ second) =
      match sink.write first with
      | .ok _ after => after.write second
      | .error refusal after => .error refusal after := by
  obtain ⟨text, room⟩ := sink
  cases room with
  | none =>
      simp only [write, String.ofList_append, String.append_assoc]
  | some room =>
      by_cases fits : first.length ≤ room
      · have left : room - (first ++ second).length = room - first.length - second.length := by
          rw [List.length_append, Nat.sub_add_eq]
        have same : (first ++ second).length ≤ room ↔ second.length ≤ room - first.length := by
          rw [List.length_append]
          omega
        simp only [write, if_pos fits, left, same, List.take_append, List.take_of_length_le fits,
          String.ofList_append, String.append_assoc]
      · have full : ¬ (first ++ second).length ≤ room := by
          rw [List.length_append]
          omega
        have front : (first ++ second).take room = first.take room :=
          List.take_append_of_le_length (by omega)
        have left : room - (first ++ second).length = room - first.length := by
          rw [List.length_append]
          omega
        simp only [write, if_neg fits, if_neg full, front, left]

/-- How printing ends at a depth when it has sent what it sends to the sink. -/
def Printer.afterSink (depth : Nat) :
    EStateM.Result SinkFull Sink Unit → EStateM.Result SinkFull Printer Unit
  | .ok _ sink => .ok () { sink, depth }
  | .error refusal sink => .error refusal { sink, depth }

namespace Print

/-- An action that, at a depth, sends a text to the sink and does nothing else. When the sink
    refuses a character, the action stops. -/
def Sends (action : Print Unit) (depth : Nat) (text : List Char) : Prop :=
  ∀ sink, action { sink, depth } = Printer.afterSink depth (sink.write text)

theorem sends_write (depth : Nat) (text : List Char) : (write text).Sends depth text := by
  intro sink
  cases received : sink.write text with
  | ok _ after => simp only [write, received, Printer.afterSink]
  | error refusal after => simp only [write, received, Printer.afterSink]

theorem sends_pure (depth : Nat) : (pure () : Print Unit).Sends depth [] := by
  intro sink
  obtain ⟨text, room⟩ := sink
  cases room with
  | none =>
      simp [Sink.write, Printer.afterSink, pure, EStateM.pure]
  | some room =>
      simp [Sink.write, Printer.afterSink, pure, EStateM.pure]

variable {depth : Nat} {text first second : List Char} {action next : Print Unit}

/-- Actions one after the other send their texts one after the other. -/
theorem Sends.bind (sends : action.Sends depth first) (sendsNext : next.Sends depth second) :
    (action >>= fun _ => next).Sends depth (first ++ second) := by
  intro sink
  rw [Sink.write_append]
  change EStateM.bind action (fun _ => next) { sink, depth } = _
  rw [EStateM.bind, sends sink]
  cases sink.write first with
  | ok _ after => exact sendsNext after
  | error refusal after => rfl

/-- One level deeper, an action sends what it sends there, and its printer comes back. -/
theorem Sends.nested (sends : action.Sends (depth + 1) text) :
    (Print.nested action).Sends depth text := by
  intro sink
  have inside := sends sink
  cases received : sink.write text with
  | ok _ after =>
      simp only [Print.nested, inside, received, Printer.afterSink, Nat.add_sub_cancel]
  | error refusal after =>
      simp only [Print.nested, inside, received, Printer.afterSink, Nat.add_sub_cancel]

theorem sends_indent (depth levels : Nat) :
    (indent levels).Sends depth (List.replicate (2 * levels) ' ') := by
  induction levels with
  | zero =>
      exact sends_pure depth
  | succ levels ih =>
      have split : List.replicate (2 * (levels + 1)) ' '
          = [' ', ' '] ++ List.replicate (2 * levels) ' ' := rfl
      rw [split]
      exact (sends_write depth _).bind ih

end Print

/-! ### Lines -/

/-- A line as it is written: two blanks for each level, the header, and a newline. -/
def Outline.lineText (line : Nat × String) : List Char :=
  List.replicate (2 * line.1) ' ' ++ line.2.toList ++ ['\n']

theorem Print.sends_line (depth : Nat) (header : String) :
    (line header).Sends depth (Outline.lineText (depth, header)) := by
  have rest := ((sends_indent depth depth).bind (sends_write depth header.toList)).bind
    (sends_write depth ['\n'])
  intro sink
  rw [Outline.lineText, ← rest sink]
  simp only [line, bind_assoc]
  rfl

namespace Outline

/-- The text of an outline at a depth, line by line. -/
def textAt (depth : Nat) (outline : Outline) : List Char :=
  (outline.lines depth).flatMap lineText

mutual

/-- Printing an outline sends its text. -/
theorem print_sends (depth : Nat) :
    ∀ outline : Outline, outline.print.Sends depth (outline.textAt depth)
  | .node header children => by
      have below := (printList_sends (depth + 1) children).nested
      have whole := (Print.sends_line depth header).bind below
      simpa only [print, textAt, lines, List.flatMap_cons] using whole

/-- Printing outlines sends their texts. -/
theorem printList_sends (depth : Nat) :
    ∀ outlines : List Outline,
      (printList outlines).Sends depth ((listLines depth outlines).flatMap lineText)
  | [] => by
      simpa only [printList, listLines, List.flatMap_nil] using Print.sends_pure depth
  | outline :: outlines => by
      have whole := (print_sends depth outline).bind (printList_sends depth outlines)
      simpa only [printList, listLines, List.flatMap_append, textAt] using whole

end

/-- The text of an outline is that of its lines. -/
theorem text_eq (outline : Outline) : outline.text = String.ofList (outline.textAt 0) := by
  have printed := print_sends 0 outline {}
  simp only [text, printed, Sink.write, Printer.afterSink, String.empty_append]

end Outline

/-! ### Prints of nodes -/

theorem Node.textAt_eq (node : Node) (depth : Nat) :
    node.textAt depth = String.ofList (node.outline.textAt depth) := by
  have printed := Outline.print_sends depth node.outline {}
  simp only [textAt, Printer.print, Printer.withRoom, printed, Sink.write, Printer.afterSink,
    Printer.ofResult, String.empty_append]

/-- As much of a text as there is room for. -/
def Text.within (text : String) : Option Nat → String
  | none => text
  | some room => String.ofList (text.toList.take room)

namespace Printer

/-- The printer behind a print: as much of the text of the node as there is room for was added. -/
def behind (printer : Printer) (node : Node) (room : Option Nat) : Printer where
  sink :=
    { text := printer.sink.text ++ Text.within (node.textAt printer.depth) room
      room := room.map (· - (node.textAt printer.depth).length) }
  depth := printer.depth

/-- Without a limit, all of the text is added. -/
theorem print_of_unlimited (printer : Printer) (node : Node) :
    printer.print node none = .ok () (printer.behind node none) := by
  have printed := Outline.print_sends printer.depth node.outline
  rw [print, withRoom, printed, behind, Node.textAt_eq]
  rfl

/-- With limited room, a print succeeds if there is room for all of the text. -/
theorem print_of_room (printer : Printer) (node : Node) (room : Nat) :
    printer.print node (some room) =
      if (node.textAt printer.depth).length ≤ room then .ok () (printer.behind node (some room))
      else .error .full (printer.behind node (some room)) := by
  have printed := Outline.print_sends printer.depth node.outline
  rw [print, withRoom, printed, behind, Node.textAt_eq, Text.within, String.length_ofList,
    String.toList_ofList]
  simp only [Sink.write]
  split
  · rfl
  · rfl

/-- However a print ends, it leaves the same printer. -/
theorem ofResult_print (printer : Printer) (node : Node) (room : Option Nat) :
    ofResult (printer.print node room) = printer.behind node room := by
  cases room with
  | none =>
      rw [print_of_unlimited]
      rfl
  | some room =>
      rw [print_of_room]
      split
      · rfl
      · rfl

/-- Each print of a series adds what fits of its text, and finds the printer at the same depth. -/
theorem printAll_eq (printer : Printer) (requests : List (Node × Option Nat)) :
    (printer.printAll requests).depth = printer.depth ∧
      (printer.printAll requests).sink.text =
        printer.sink.text ++ Text.concat
          (requests.map fun (node, room) => Text.within (node.textAt printer.depth) room) := by
  induction requests generalizing printer with
  | nil =>
      exact ⟨rfl, String.append_empty.symm⟩
  | cons request requests ih =>
      obtain ⟨node, room⟩ := request
      rw [printAll, ofResult_print]
      obtain ⟨depth, text⟩ := ih (printer.behind node room)
      refine ⟨depth, ?_⟩
      rw [text, behind, String.append_assoc]
      rfl

/-- A print into an unlimited sink sends the lines of the outline of the node. A print into a sink
    with limited room leaves an exact front of this text and a printer at the same depth. It
    succeeds if and only if there is room for all of the text. Hence a series of prints leaves such
    fronts one behind the other. -/
theorem print_within_room (printer : Printer) :
    (∀ node, node.textAt printer.depth = String.ofList (node.outline.textAt printer.depth) ∧
      printer.print node none =
        .ok ()
          { sink := { text := printer.sink.text ++ node.textAt printer.depth, room := none }
            depth := printer.depth }) ∧
    (∀ node room, ∃ after : Printer,
      after.sink.text =
        printer.sink.text ++ String.ofList ((node.textAt printer.depth).toList.take room) ∧
      after.depth = printer.depth ∧
      printer.print node (some room) =
        if (node.textAt printer.depth).length ≤ room then .ok () after
        else .error .full after) ∧
    ∀ requests,
      (printer.printAll requests).depth = printer.depth ∧
      (printer.printAll requests).sink.text =
        printer.sink.text ++ Text.concat
          (requests.map fun (node, room) => Text.within (node.textAt printer.depth) room) := by
  refine ⟨?_, ?_, printer.printAll_eq⟩
  · intro node
    exact ⟨node.textAt_eq printer.depth, printer.print_of_unlimited node⟩
  · intro node room
    exact ⟨printer.behind node (some room), rfl, rfl, printer.print_of_room node room⟩

end Printer

end FrontEnd
