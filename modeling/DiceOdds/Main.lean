import DiceOdds.CommandLine.Run

/-!
# The program

Hands arguments and input to `DiceOdds.CommandLine.run` and prints what it shows. The environment
variable `DICE_LOG` names the level down to which remarks are shown.
-/

open DiceOdds

/-- The input up to the end of its first line. -/
partial def readLine (input : IO.FS.Stream) (before : ByteArray) : IO ByteArray := do
  let chunk ← input.read 4096
  if chunk.isEmpty || chunk.data.contains 10 then return before ++ chunk
  readLine input (before ++ chunk)

def main (args : List String) : IO UInt32 := do
  let arguments := Arguments.read args
  let input ←
    if CommandLine.wantsInput arguments then readLine (← IO.getStdin) .empty else pure .empty
  let entropy := (← IO.getRandomBytes 8).foldl (fun x b => x * 256 + b.toUInt64) 0
  let output := CommandLine.run entropy arguments input
  let level := Level.threshold ((← IO.getEnv "DICE_LOG").getD "warn")
  for remark in output.journal.upTo level do
    IO.eprintln ("[" ++ remark.level.label ++ "] " ++ remark.message)
  IO.print output.text
  IO.eprint output.errors
  return output.code.toUInt32
