import EdgeRoutes.CommandLine.Run

/-! The program itself: its arguments, the files of the machine, and the standard streams. -/

set_option autoImplicit false

namespace EdgeRoutes

/-- The fault behind an error of the system, told by the number of the error, which may come
with a minus sign. -/
def FileFault.ofError (error : IO.Error) : FileFault :=
  match error with
  | .noFileOrDirectory _ _ _ => .notFound
  | .inappropriateType _ number _
  | .invalidArgument _ number _
  | .permissionDenied _ number _ =>
    match min number (-number) with
    | 13 => .denied
    | 20 => .notDirectory
    | 21 => .isDirectory
    | 36 => .nameTooLong
    | 40 => .tooManyLinks
    | _ => .other (toString error)
  | error => .other (toString error)

instance : FileSystem IO where
  isFile path := do
    try
      let metadata ← (← IO.FS.realPath path).metadata
      return metadata.type == .file
    catch _ => return false
  readText path := do
    try
      match String.fromUTF8? (← IO.FS.readBinFile path) with
      | some text => return .ok text
      | none => return .error .notText
    catch error => return .error (.ofError error)
  writeText path text := do
    try
      IO.FS.writeFile path text
      return .ok ()
    catch error => return .error (.ofError error)

end EdgeRoutes

open EdgeRoutes CommandLine in
def main (arguments : List String) : IO UInt32 := do
  let report ← CommandLine.run arguments
  for event in report.events do
    IO.eprintln event.line
  IO.print report.output
  match report.ending with
  | .done _ => pure ()
  | .failed error => IO.eprintln ("Error: " ++ error.label ++ ": " ++ error.message)
  | .misused => IO.eprintln ("Usage: " ++ Topic.program.usage)
  return report.exitCode.toUInt32
