import RobotConsole.Proofs.Display

/-!
# A full sink changes nothing but what is shown

Since every command shows its lines after all its work, how much a sink takes has no bearing on the
service or on the index: a sink with room for some bytes takes exactly the first bytes of what a
command has to show, and the command is told only if these were not all.  A command that ends with a
trouble of its own has shown nothing.
-/

set_option autoImplicit false

namespace RobotConsole

def Page.bytes (page : Page) : List UInt8 :=
  page.flatMap Sink.lineBytes

namespace Sink

theorem put_fitting {room : Nat} {bytes : List UInt8} (fits : bytes.length ≤ room)
    (shown : List UInt8) :
    put bytes ⟨some room, shown⟩ = (true, ⟨some (room - bytes.length), shown ++ bytes⟩) := by
  simp only [put, if_pos fits]

theorem put_too_long {room : Nat} {bytes : List UInt8} (long : room < bytes.length)
    (shown : List UInt8) :
    put bytes ⟨some room, shown⟩ = (false, ⟨some 0, shown ++ bytes.take room⟩) := by
  simp only [put, if_neg (Nat.not_le.mpr long)]

theorem bytes_cons (line : String) (rest : Page) :
    Page.bytes (line :: rest) = lineBytes line ++ Page.bytes rest :=
  List.flatMap_cons

theorem putPage_unlimited (page : Page) (shown : List UInt8) :
    putPage page ⟨none, shown⟩ = (.ok (), ⟨none, shown ++ page.bytes⟩) := by
  induction page generalizing shown with
  | nil => simp [putPage, Page.bytes]
  | cons line rest ih =>
      simp only [putPage, put, ih, bytes_cons, List.append_assoc]

/-- A sink takes the bytes that it has room for, and fails if there are more. -/
theorem putPage_limited (page : Page) (room : Nat) (shown : List UInt8) :
    putPage page ⟨some room, shown⟩ =
      (if page.bytes.length ≤ room then .ok () else .error .outputClosed,
        ⟨some (room - page.bytes.length), shown ++ page.bytes.take room⟩) := by
  induction page generalizing room shown with
  | nil => simp [putPage, Page.bytes]
  | cons line rest ih =>
      rw [bytes_cons, List.length_append, List.take_append]
      by_cases fits : (lineBytes line).length ≤ room
      · -- the line fits, and the others have the room that is left
        have same : (Page.bytes rest).length ≤ room - (lineBytes line).length ↔
            (lineBytes line).length + (Page.bytes rest).length ≤ room := by omega
        simp only [putPage, put_fitting fits, ih, same, List.take_of_length_le fits,
          List.append_assoc, Nat.sub_sub]
      · have long : room < (lineBytes line).length := Nat.not_le.mp fits
        have tooLong : ¬ (lineBytes line).length + (Page.bytes rest).length ≤ room := by omega
        have none : room - (lineBytes line).length = 0 := by omega
        have spent : room - ((lineBytes line).length + (Page.bytes rest).length) = 0 := by omega
        simp only [putPage, put_too_long long, if_neg tooLong, none, spent, List.take_zero,
          List.append_nil]

end Sink

namespace Command

/-- A command on a sink without limit ends well, or it has shown nothing.  On a sink with room for
some bytes it leaves the same desk, that is, the same store, requests and waits; it shows the same
up to that room; and it ends in the same way, unless there is more to show than there is room
for. -/
theorem output_never_interferes (surroundings : Surroundings) (command : Command) (desk : Desk) :
    let whole := command.perform surroundings desk (Sink.ofRoom none)
    (∀ trouble, whole.1 = .error trouble → whole.2.2.shown = []) ∧
      ∀ room,
        let cut := command.perform surroundings desk (Sink.ofRoom (some room))
        cut.2.1 = whole.2.1 ∧
          cut.2.2.shown = whole.2.2.shown.take room ∧
          cut.1 = if whole.2.2.shown.length ≤ room then whole.1 else .error .outputClosed := by
  simp only [perform_eq, Sink.ofRoom]
  cases (command.run surroundings).run desk with
  | mk outcome after =>
      cases outcome with
      | error trouble => simp
      | ok page => simp [Sink.putPage_unlimited, Sink.putPage_limited]

end Command

end RobotConsole
