import Criteria.Program
import Std.Time.DateTime.Timestamp

/-!
The program at its terminal: requests come in by standard input, one to a line, and answers go out
by standard output. What it decides is decided elsewhere.
-/

set_option autoImplicit false
set_option relaxedAutoImplicit false

namespace Criteria.Program

/-- The text of a file, if there is one and it is UTF-8. -/
def readText? (path : String) : IO (Option String) := do
  try
    return String.fromUTF8? (← IO.FS.readBinFile path)
  catch _ => return none

/-- The variables of the environment, in the form in which the system keeps them. -/
def readVariables : IO (List (String × String)) := do
  let contents ← readText? "/proc/self/environ"
  return ((contents.getD "").splitOn "\x00").filterMap fun entry ↦
    match entry.splitOn "=" with
    | name :: value => if name = "" then none else some (name, "=".intercalate value)
    | [] => none

def readClock : IO Instant := do
  let nanos := (← Std.Time.Timestamp.now).toNanosecondsSinceUnixEpoch.val
  return ⟨nanos / 1000000000, (nanos % 1000000000).toNat⟩

/-- An identifier of its own, and the time. -/
def readFresh : IO Fresh := do
  let now ← readClock
  let random := (← IO.getRandomBytes 10).toList.foldl (fun n b ↦ n * 256 + b.toNat) 0
  return Fresh.ofRandom now random

/-- The next line with the byte that ends it, or nothing at the end of the input: what `takeLine`
takes of a stream. -/
partial def readLine (input : IO.FS.Stream) (done : ByteArray) : IO ByteArray := do
  let next ← input.read 1
  if next.isEmpty then return done
  else
    let line := done ++ next
    if next.toList = [0x0A] then return line else readLine input line

/-- The loop of `transcript`, with its input, times and identifiers from the system. Each answer
goes out before the next line is read. -/
partial def serve (input output : IO.FS.Stream) (s : Service) : IO Unit := do
  let line ← readLine input .empty
  unless line.isEmpty do
    let fresh ← readFresh
    let began ← IO.monoNanosNow
    match s.handleLine fresh line.toList with
    | (none, s) => serve input output s
    | (some response, s) =>
      let done ← IO.monoNanosNow
      output.write ⟨(written ((done - began) / 1000) response).toArray⟩
      output.flush
      serve input output s

def run : IO Unit := do
  let vars ← readVariables
  let names := (Settings.fileNames (environment vars) serviceName).flatMap Settings.aliases
  let files ← names.mapM fun (name, _) ↦ do
    return (name, ← readText? (pathIn (directory vars) name))
  let settings := (settings? (fun name ↦ (files.lookup name).join) vars serviceName).getD
    .standard
  let seed ← match settings.seedFile with
    | none => pure none
    | some path => readText? path
  let s := start settings (← readClock) seed
  serve (← IO.getStdin) (← IO.getStdout) s

end Criteria.Program

def main : IO Unit :=
  Criteria.Program.run
