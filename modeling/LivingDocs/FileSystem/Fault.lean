import LivingDocs.Path

/-!
# Faults of a file system

Why an operation on a file system can fail, and what is wrong with a path already by its spelling:
names and paths are limited in length, counted in bytes, and no path holds a null character.

## Main definitions

* `LivingDocs.FileSystem.Fault` — why an operation failed.
* `LivingDocs.FileSystem.maxNameSize`, `LivingDocs.FileSystem.maxPathSize` — the limits.
* `LivingDocs.FileSystem.spelled` — whether a path can be looked up at all.

## Main results

* `LivingDocs.FileSystem.spelled_eq_ok_iff` — which paths can be looked up.
-/

set_option autoImplicit false

namespace LivingDocs.FileSystem

/-- **Why an operation on the file system failed.** -/
inductive Fault where
  /-- A name on the way leads nowhere. -/
  | notFound
  /-- There is already something of that name. -/
  | alreadyExists
  /-- A file stands where a directory is needed. -/
  | notDirectory
  /-- A directory stands where a file is needed. -/
  | isDirectory
  /-- A name or a path is longer than the file system takes. -/
  | nameTooLong
  /-- A path holds a null character. -/
  | nullCharacter
  /-- The content of a file is no text. -/
  | notText
  deriving DecidableEq, Repr

/-- The fault in words. -/
def Fault.message : Fault → String
  | notFound => "No such file or directory (os error 2)"
  | alreadyExists => "File exists (os error 17)"
  | notDirectory => "Not a directory (os error 20)"
  | isDirectory => "Is a directory (os error 21)"
  | nameTooLong => "File name too long (os error 36)"
  | nullCharacter => "file name contained an unexpected NUL byte"
  | notText => "stream did not contain valid UTF-8"

/-- The length of the longest name, in bytes. -/
def maxNameSize : Nat := 255

/-- The length of the longest path, in bytes. -/
def maxPathSize : Nat := 4095

/-- The character that no path holds. -/
def nullCharacter : Char := Char.ofNat 0

/-- **Whether a path can be looked up at all**, whatever the file system holds. -/
def spelled (path : Path) : Except Fault Unit :=
  if nullCharacter ∈ path.text.toList then .error .nullCharacter
  else if maxPathSize < path.text.utf8ByteSize then .error .nameTooLong
  else if path.text = "" then .error .notFound
  else .ok ()

/-- **Which paths can be looked up.** -/
theorem spelled_eq_ok_iff (path : Path) :
    spelled path = .ok () ↔
      nullCharacter ∉ path.text.toList ∧ path.text.utf8ByteSize ≤ maxPathSize ∧
        path.text ≠ "" := by
  rw [spelled]
  split
  · simp_all
  · split
    · next hlong => simp [Nat.not_le.mpr hlong]
    · split <;> simp_all

end LivingDocs.FileSystem
