import Lox.CommandLine
import Lox.Proofs.Defences
import Lox.Proofs.Observed

set_option autoImplicit false

namespace Lox

theorem asLines_append (first second : List String) :
    asLines (first ++ second) = asLines first ++ asLines second := by
  unfold asLines
  rw [List.map_append, String.join_append]

theorem Report.text_eq (report : Report) :
    report.text = asLines (report.map Diagnostic.format) := by
  unfold Report.text asLines
  rw [List.map_map]
  rfl

/-- Both channels of a program, and whether a fault was among what was written to them. -/
structure Streams where
  out : String
  err : String
  faulted : Bool

namespace Streams

def empty : Streams := ⟨"", "", false⟩

def see (setup : CommandLine.Setup) (streams : Streams) (event : Event) : Streams :=
  ⟨streams.out ++ asLines event.output?.toList, streams.err ++ setup.eventText event,
    streams.faulted || event.diagnostic?.isSome⟩

end Streams

namespace CommandLine

end CommandLine

namespace CommandLine

variable {fuel : Nat} {host : Host} {config : Config} {path source : String}

end CommandLine

namespace Session

variable {session : Session} {source : String}

theorem eval?_of_error {problems : List Diagnostic}
    (failed : Program.ofSource source = .error problems) (fuel : Nat) :
    session.eval? fuel source =
      some ({ session with problems := session.problems ++ problems }, ⟨none, [], problems⟩) := by
  unfold eval?
  rw [failed]

theorem eval?_of_ok {program : Program} (reads : Program.ofSource source = .ok program)
    (fuel : Nat) : session.eval? fuel source = session.merge? fuel program := by
  unfold eval?
  rw [reads]

theorem eval_of_error {problems : List Diagnostic}
    (failed : Program.ofSource source = .error problems) :
    session.eval source =
      ({ session with problems := session.problems ++ problems }, ⟨none, [], problems⟩) := by
  unfold eval
  rw [eval?_of_error failed]
  rfl

theorem eval_of_ok {program : Program} (reads : Program.ofSource source = .ok program) :
    session.eval source = session.merge program := by
  unfold eval merge
  rw [eval?_of_ok reads]

end Session

end Lox
