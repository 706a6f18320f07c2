import Paperlog.Framework.Digits
import Paperlog.Model.LogData

/-!
# Build ids (`shared/backtrace.hpp`)

`getBuildId` goes through the section headers of an ELF file until it finds the note with the build
id, which it prints in hexadecimal.

It reads with an `std::ifstream` into variables that nothing initialises.  A read that runs into the
end of the file fills what it can and leaves the stream in its fail state, in which `seekg` and
`read` do nothing.  A byte that no read has filled is `none`, and a search that looks at such a byte,
or whose `int` arithmetic overflows, is `none` as a whole.

`ElfW` and the fields of its structures are those of `<elf.h>` on a little-endian machine.
-/

namespace Paperlog

/-- The two meanings of `ElfW`. -/
inductive ElfClass
  | elf32
  | elf64
  deriving DecidableEq

/-- A field of a structure: where it begins, and its bytes. -/
structure Field where
  offset : ℕ
  size : ℕ

/-- Bytes in memory; `none` where nothing has been written. -/
abbrev Memory := List (Option UInt8)

namespace Memory

/-- Some bytes of a variable. -/
def bytes (memory : Memory) (field : Field) : Option Bytes :=
  ((memory.drop field.offset).take field.size).mapM id

/-- The unsigned number in a field. -/
def load (memory : Memory) (field : Field) : Option ℕ :=
  (memory.bytes field).map LittleEndian.value

end Memory

namespace ElfClass

/-- The bits of an `ElfW(Off)`. -/
def bits : ElfClass → ℕ
  | elf32 => 32
  | elf64 => 64

/-- `sizeof(ElfW(Ehdr))`. -/
def sizeofEhdr : ElfClass → ℕ
  | elf32 => 52
  | elf64 => 64

def eShoff : ElfClass → Field
  | elf32 => ⟨32, 4⟩
  | elf64 => ⟨40, 8⟩

def eShentsize : ElfClass → Field
  | elf32 => ⟨46, 2⟩
  | elf64 => ⟨58, 2⟩

def eShnum : ElfClass → Field
  | elf32 => ⟨48, 2⟩
  | elf64 => ⟨60, 2⟩

/-- `sizeof(ElfW(Shdr))`. -/
def sizeofShdr : ElfClass → ℕ
  | elf32 => 40
  | elf64 => 64

def shType : ElfClass → Field
  | elf32 => ⟨4, 4⟩
  | elf64 => ⟨4, 4⟩

def shOffset : ElfClass → Field
  | elf32 => ⟨16, 4⟩
  | elf64 => ⟨24, 8⟩

def shSize : ElfClass → Field
  | elf32 => ⟨20, 4⟩
  | elf64 => ⟨32, 8⟩

end ElfClass

/-- `SHT_NOTE`. -/
def shtNote : ℕ := 7

/-- `ElfW(Nhdr)::n_namesz`. -/
def nNamesz : Field := ⟨0, 4⟩

/-- `ElfW(Nhdr)::n_descsz`. -/
def nDescsz : Field := ⟨4, 4⟩

/-- `data + 12`. -/
def noteName : Field := ⟨12, 4⟩

/-- `buildIdAddr`, as far as it is read. -/
def noteDesc : Field := ⟨16, 20⟩

/-- `"GNU"`, with its NUL. -/
def gnu : Bytes := [0x47, 0x4E, 0x55, 0x00]

/-- An `std::ifstream` of an open file. -/
structure IfStream where
  file : Bytes
  pos : ℕ
  failed : Bool

namespace IfStream

/-- `seekg`, to a position that fits a signed offset of 64 bits. -/
def seekg (s : IfStream) (pos : ℕ) : IfStream :=
  if s.failed then s
  else if pos < 2 ^ 63 then { s with pos }
  else { s with failed := true }

/-- `read` into a fresh variable of `n` bytes. -/
def read (s : IfStream) (n : ℕ) : Memory × IfStream :=
  if s.failed then (List.replicate n none, s)
  else
    let got := (s.file.drop s.pos).take n
    (got.map some ++ List.replicate (n - got.length) none,
      { s with pos := s.pos + got.length, failed := decide (got.length < n) })

end IfStream

/-- The `i`-th `value`; the bytes of a word are swapped into a `uint32_t`. -/
def buildIdWord (desc : Bytes) (i : ℕ) : ℕ := LittleEndian.value ((desc.drop (i * 4)).take 4).reverse

/-- The string in `stream`: each word in hexadecimal, filled up with zeros to eight digits. -/
def buildIdText (desc : Bytes) : Str :=
  (List.range 5).flatMap fun i => (Nat.toDigits 16 (buildIdWord desc i)).leftpad 8 '0'

/-- The build id in the note, if it is one. -/
def noteBuildId (data : Memory) : Option (Option Str) := do
  let namesz ← data.load nNamesz
  if namesz = 4 then
    let descsz ← data.load nDescsz
    if descsz = 20 then
      let name ← data.bytes noteName
      if name = gnu then
        let desc ← data.bytes noteDesc
        pure (some (buildIdText desc))
      else pure none
    else pure none
  else pure none

/-- The body of the loop, once the section header is read; the stream may have moved. -/
def sectionBuildId (cls : ElfClass) (s : IfStream) (header : Memory) :
    Option (Option Str × IfStream) := do
  let type ← header.load cls.shType
  if type = shtNote then
    let size ← header.load cls.shSize
    if size = 0x24 then
      let offset ← header.load cls.shOffset
      let (data, s) := (s.seekg offset).read 0x24
      let buildId ← noteBuildId data
      pure (buildId, s)
    else pure (none, s)
  else pure (none, s)

/-- The loop from the `i`-th section on, with `left` sections to go. -/
def searchSections (cls : ElfClass) (elf : Memory) : ℕ → ℕ → IfStream → Option (Option Str)
  | 0, _, _ => some none
  | left + 1, i, s => do
      let shoff ← elf.load cls.eShoff
      let shentsize ← elf.load cls.eShentsize
      if 2 ^ 31 ≤ i * shentsize then none
      else
        let (header, s) := (s.seekg ((shoff + i * shentsize) % 2 ^ cls.bits)).read cls.sizeofShdr
        let (buildId, s) ← sectionBuildId cls s header
        match buildId with
        | some buildId => some (some buildId)
        | none => searchSections cls elf left (i + 1) s

/-- `getBuildId`, on the contents of the file if it can be opened. -/
def getBuildId (cls : ElfClass) (file : Option Bytes) : Option (Option Str) :=
  match file with
  | none => some none
  | some file => do
      let (elf, s) := ((IfStream.mk file 0 false).seekg 0).read cls.sizeofEhdr
      let shnum ← elf.load cls.eShnum
      searchSections cls elf shnum 0 s

end Paperlog
