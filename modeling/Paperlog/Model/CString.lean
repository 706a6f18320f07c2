import Paperlog.Framework.Utf8
import Paperlog.Model.CStr

/-!
# Owned C strings

`CString::new` takes the bytes of a string that has none equal to zero and refuses all others, with
the position of the first zero.  The pointer to a `CString` is read back as these bytes.
-/

namespace Paperlog

/-- `CString`, by its bytes before the terminating NUL. -/
structure CString where
  bytes : Bytes
  nul_notMem : 0 ∉ bytes

/-- `NulError`. -/
structure NulError where
  position : ℕ
  bytes : Bytes
  deriving DecidableEq

namespace CString

/-- `CString::new`. -/
def new (bytes : Bytes) : Except NulError CString :=
  if h : 0 ∈ bytes then .error ⟨bytes.idxOf 0, bytes⟩ else .ok ⟨bytes, h⟩

/-- `CString::as_ptr`. -/
def asPtr (s : CString) : CStrPtr := some s.bytes

/-- `ptr::null()` for no string. -/
def ptrOrNull (s : Option CString) : CStrPtr := s.bind asPtr

end CString

/-! ## Strings without NUL -/

/-- No character of the string is U+0000. -/
def Str.NulFree (s : Str) : Prop := Char.ofNat 0 ∉ s

instance (s : Str) : Decidable s.NulFree := inferInstanceAs (Decidable (_ ∉ _))

theorem zero_mem_utf8_iff (s : Str) : 0 ∈ s.utf8 ↔ ¬ s.NulFree := by
  rw [Str.NulFree, not_not, ← List.count_pos_iff, ← List.count_pos_iff, Str.utf8,
    String.count_flatMap_utf8EncodeChar (by decide)]
  rfl

@[simp] theorem nulFree_append (s t : Str) : (s ++ t).NulFree ↔ s.NulFree ∧ t.NulFree := by
  simp [Str.NulFree]

namespace CString

/-- The C string of a string without NUL. -/
def ofStr (s : Str) (h : s.NulFree) : CString :=
  ⟨s.utf8, fun hmem => (zero_mem_utf8_iff s).mp hmem h⟩

theorem new_of_nulFree {s : Str} (h : s.NulFree) : new s.utf8 = .ok (ofStr s h) :=
  dif_neg fun hmem => (zero_mem_utf8_iff s).mp hmem h

theorem new_of_not_nulFree {s : Str} (h : ¬ s.NulFree) :
    new s.utf8 = .error ⟨s.utf8.idxOf 0, s.utf8⟩ :=
  dif_pos ((zero_mem_utf8_iff s).mpr h)

theorem nulFree_of_new_ok {s : Str} {c : CString} (h : new s.utf8 = .ok c) : s.NulFree := by
  by_contra hnul
  rw [new_of_not_nulFree hnul] at h
  cases h

@[simp] theorem toStringLossy_ofStr (s : Str) (h : s.NulFree) :
    CStr.toStringLossy (ofStr s h).bytes = s :=
  CStr.toStringLossy_utf8 s

end CString

end Paperlog
