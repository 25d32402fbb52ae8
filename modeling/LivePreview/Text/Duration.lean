/-!
# Durations

A duration of whole milliseconds is shown in seconds from one second on, in
milliseconds below, and as no nanoseconds when it is empty.
-/

namespace LivePreview.Text

/-- The digits of a fraction of a second without the zeros at its end. -/
def fractionDigits (milliseconds : Nat) : List Char :=
  let digits := Nat.toDigits 10 (1000 + milliseconds)
  ((digits.drop 1).reverse.dropWhile (· = '0')).reverse

def durationText (duration : Nat) : String :=
  if duration = 0 then "0ns"
  else if duration < 1000 then s!"{duration}ms"
  else
    let fraction := fractionDigits (duration % 1000)
    let point := if fraction.isEmpty then "" else "."
    s!"{duration / 1000}{point}{String.ofList fraction}s"

end LivePreview.Text
