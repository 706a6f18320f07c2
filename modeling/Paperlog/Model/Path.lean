import Paperlog.Model.LogData

/-!
# Paths, as `add_context` builds them

`add_context` names its file `context_log_path.join(tag).with_extension("log")`.  The two `std`
operations are written here on Unix paths as they are documented: `join` lets an absolute argument
replace the base, and `with_extension` cuts right after the stem of the last normal component, so
trailing separators and `.` components disappear and a path without a file name is left as it is.
-/

namespace Paperlog

/-- A Unix path, as the string it is written with. -/
abbrev PathBuf := Str

namespace PathBuf

/-- `Path::join`. -/
def join (base tag : PathBuf) : PathBuf :=
  match tag with
  | '/' :: _ => tag
  | _ => if base = [] ∨ base.getLast? = some '/' then base ++ tag else base ++ '/' :: tag

/-- Drops the trailing separators and `.` components of a reversed path. -/
def stripTail : Str → Str
  | '/' :: rest => stripTail rest
  | '.' :: '/' :: rest => stripTail ('/' :: rest)
  | rest => rest

/-- What stands before the last component, and that component when it is a normal one: neither
`.` nor `..`. -/
def splitFileName (path : PathBuf) : Option (Str × Str) :=
  let reversed := stripTail path.reverse
  let name := (reversed.takeWhile (· ≠ '/')).reverse
  if name = [] ∨ name = ['.'] ∨ name = ['.', '.'] then none
  else some ((reversed.dropWhile (· ≠ '/')).reverse, name)

/-- `Path::parent`: all but the last component; the root and the empty path have none. -/
def parent (path : PathBuf) : Option PathBuf :=
  match stripTail path.reverse with
  | [] => none
  | reversed =>
      match stripTail (reversed.dropWhile (· ≠ '/')) with
      | [] => some (if path.head? = some '/' then ['/'] else [])
      | before => some before.reverse

/-- The stem of a file name: what stands before its last dot, unless that dot opens the name. -/
def fileStem (name : Str) : Str :=
  match name.reverse.dropWhile (· ≠ '.') with
  | [] => name
  | _ :: before => if before = [] then name else before.reverse

/-- `Path::with_extension`, for a nonempty extension, as it is documented.  For a name such as `..a`
the library does something else: it takes the path up to the last dot, which ends in `..` then, and
finds no file name there that could get an extension.  `File::create` refuses what comes out. -/
def withExtension (path : PathBuf) (extension : Str) : PathBuf :=
  match splitFileName path with
  | none => path
  | some (dir, name) => dir ++ fileStem name ++ '.' :: extension

example : withExtension "/logs/a.b/./".toList "log".toList = "/logs/a.log".toList := by decide

end PathBuf

end Paperlog
