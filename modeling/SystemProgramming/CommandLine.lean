import SystemProgramming.Kernel
import SystemProgramming.Library.Getopt

namespace SystemProgramming

open Getopt

/-- What follows `argv[0]`, and what the environment asks of `getopt`. -/
structure CommandLine where
  mode : Mode
  args : List CString

namespace CommandLine

variable (line : CommandLine) (optstring : Text)

def texts : List Text := line.args.map (·.val)

variable {line optstring} in
theorem plain_of_operand {text : Text} (operand : text ∈ (line.mode.scan optstring line.texts).2) : 0 ∉ text := by
  have given := (mode_scan_sublist line.mode optstring line.texts).subset operand
  obtain ⟨arg, -, rfl⟩ := List.mem_map.mp given
  exact arg.2

def parse : List Event × List CString :=
  ((line.mode.scan optstring line.texts).1,
    (line.mode.scan optstring line.texts).2.pmap Subtype.mk fun _ operand => plain_of_operand operand)

end CommandLine

end SystemProgramming
