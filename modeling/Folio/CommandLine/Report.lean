import Folio.Log

/-!
# Reported lines

How a line of the log is shown: in the colour of its level, with the time of day and the level
before the message, and with the time that the step took where the line tells it.
-/

set_option autoImplicit false

namespace Folio

/-- A number with at least `width` digits. -/
def paddedNumeral (width n : Nat) : String :=
  let digits := Nat.toDigits 10 n
  String.ofList (List.replicate (width - digits.length) '0' ++ digits)

/-- A time in milliseconds. -/
def TimeStyle.text : TimeStyle → Nat → String
  | .seconds, time =>
    let hundredths := (time + 5) / 10
    s!"{hundredths / 100}.{paddedNumeral 2 (hundredths % 100)}s"
  | .clock, time =>
    let seconds := time / 1000
    let minutes := seconds / 60
    let hours := minutes / 60
    if 0 < hours then s!"{hours}h {minutes % 60}m {seconds % 60}s"
    else if 0 < minutes then s!"{minutes}m {seconds % 60}s"
    else s!"{seconds}.{paddedNumeral 3 (time % 1000)}s"

/-- A text with at least `width` characters. -/
def padded (width : Nat) (text : String) : String :=
  String.ofList (text.toList ++ List.replicate (width - text.length) ' ')

/-- The number of the terminal colour of a level. -/
def Level.colour : Level → Nat
  | .error => 31
  | .warn => 33
  | .info => 32
  | .debug => 36
  | .trace => 35

/-- A line as it is shown at a time of day, after `elapsed` milliseconds. -/
def LogLine.text (timeOfDay : String) (elapsed : Nat) (line : LogLine) : String :=
  let level := padded 5 line.level.name
  let time := match line.timed with
    | some style => s!" in {style.text elapsed}"
    | none => ""
  s!"\x1b[1;{line.level.colour}m{timeOfDay} {level} {line.message}{time}\x1b[0m"

end Folio
