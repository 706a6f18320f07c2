import Mathlib.Logic.Function.Basic
import Paperlog.Framework.LexicalPath
import Paperlog.Model.Path

/-!
# File output: what the logger asks of it, and `std`'s `BufWriter<File>`

The logger code is generic in its writer (`&mut impl Write`), and so is the model: `FileIo W ω` is
an arbitrary type `ω` of buffered files over an arbitrary world `W`, with no laws.  Every operation
may fail with an error, and the world may change as it likes, so a statement for every `FileIo`
is a statement for every I/O outcome.

`Disk` is the instance in which the operating system never fails: a map from places to contents,
`File` handles with a cursor of their own, and `BufWriter` with its 8 KiB buffer, written after
`std`.  Which place a path leads to is the operating system's to say, so it is a parameter: paths
that are spelled differently may well lead to one file.  A handle opened by `File::create` starts at
offset 0 and does not append, so the cursor is the number of bytes the handle has written;
`File.written` keeps those bytes, and the cursor is its length.
-/

namespace Paperlog

/-- A `std::io::Error`, by its `Display` text. -/
abbrev IoError := Str

/-- Buffered files over a world `W`.  A failed operation leaves the writer and the world in
whatever state it reached. -/
class FileIo (W ω : Type) where
  /-- `fs::create_dir_all`. -/
  createDirAll : PathBuf → EStateM IoError W Unit
  /-- `File::create` wrapped in `BufWriter::new`. -/
  create : PathBuf → EStateM IoError W ω
  /-- `Write::write_all`. -/
  writeAll : Bytes → EStateM IoError (W × ω) Unit
  /-- `Write::flush`. -/
  flush : EStateM IoError (W × ω) Unit
  /-- Dropping the writer: what it still buffers is written, errors are ignored. -/
  drop : W → ω → W

section Write

variable {W ω : Type} [FileIo W ω]

/-- `write_fmt`: the pieces one after another, stopping at the first error. -/
def writeFmt : List Str → EStateM IoError (W × ω) Unit
  | [] => pure ()
  | piece :: pieces => do
      FileIo.writeAll piece.utf8
      writeFmt pieces

/-- `LogData::write_to_io`. -/
def LogData.writeToIo (log : LogData) : EStateM IoError (W × ω) Unit := writeFmt log.ioPieces

/-- `LogData::write_compact_to_io`. -/
def LogData.writeCompactToIo (log : LogData) : EStateM IoError (W × ω) Unit :=
  writeFmt log.compactPieces

end Write

/-! ## The file system that never fails -/

/-- Where a file is, whatever path leads to it. -/
abbrev Place := List (LexicalPath.Component Str)

/-- File contents by place; `none` where no file was created.  A path leads to the place `resolve`
gives for it: the working directory, `.`, `..` and links are followed there, and what they stand for
does not change while the logger runs. -/
structure Disk (resolve : PathBuf → Place) where
  files : Place → Option Bytes

variable {resolve : PathBuf → Place}

/-- `fs::read`. -/
def Disk.read (disk : Disk resolve) (path : PathBuf) : Option Bytes := disk.files (resolve path)

/-- `content` after `new` has been written at offset `pos`; a gap is filled with zeros. -/
def writeAt (content : Bytes) (pos : ℕ) (new : Bytes) : Bytes :=
  content.take pos ++ List.replicate (pos - content.length) 0 ++ new ++
    content.drop (pos + new.length)

/-- An open file.  Its cursor is `written.length`. -/
structure File where
  place : Place
  written : Bytes
  deriving DecidableEq

/-- `File::write_all`: the bytes go to the cursor, which moves past them. -/
def File.writeAll (disk : Disk resolve) (file : File) (new : Bytes) : Disk resolve × File :=
  if new = [] then (disk, file)
  else
    ({ disk with
        files := Function.update disk.files file.place
          (some (writeAt ((disk.files file.place).getD []) file.written.length new)) },
      { file with written := file.written ++ new })

structure BufWriter where
  inner : File
  buf : Bytes
  deriving DecidableEq

namespace BufWriter

/-- `DEFAULT_BUF_SIZE`. -/
def capacity : ℕ := 8192

/-- `BufWriter::flush_buf`. -/
def flushBuf (disk : Disk resolve) (w : BufWriter) : Disk resolve × BufWriter :=
  let (disk, inner) := w.inner.writeAll disk w.buf
  (disk, { inner, buf := [] })

/-- `BufWriter::write_all`: small writes are buffered; one that does not fit pushes the buffer out
first, and one that would fill a whole buffer goes straight to the file. -/
def writeAll (disk : Disk resolve) (w : BufWriter) (new : Bytes) : Disk resolve × BufWriter :=
  if new.length < capacity - w.buf.length then (disk, { w with buf := w.buf ++ new })
  else
    let (disk, w) := if capacity - w.buf.length < new.length then flushBuf disk w else (disk, w)
    if capacity ≤ new.length then
      let (disk, inner) := w.inner.writeAll disk new
      (disk, { w with inner })
    else (disk, { w with buf := w.buf ++ new })

/-- Everything handed to this writer: what it has put into the file, then what it still buffers. -/
def contents (w : BufWriter) : Bytes := w.inner.written ++ w.buf

end BufWriter

/-- `File::create`: the file exists and is empty, and the handle stands at its start. -/
def Disk.create (disk : Disk resolve) (path : PathBuf) : Disk resolve × BufWriter :=
  ({ disk with files := Function.update disk.files (resolve path) (some []) },
    { inner := { place := resolve path, written := [] }, buf := [] })

instance : FileIo (Disk resolve) BufWriter where
  createDirAll _ := pure ()
  create path := fun disk => let (disk, w) := disk.create path; .ok w disk
  writeAll new := fun (disk, w) => .ok () (w.writeAll disk new)
  flush := fun (disk, w) => .ok () (w.flushBuf disk)
  drop disk w := (w.flushBuf disk).1

end Paperlog
