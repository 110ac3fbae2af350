import Phrasebook.Files.Path

/-! Files as the program uses them: faults, and the operations that a program needs, over any monad
that performs them. -/
namespace Phrasebook

inductive FileFault where
  | notFound
  | notDirectory
  | isDirectory
  | nameTooLong
  | nulInName
  | invalidArgument
  | alreadyThere
  | busy
  | notText
  | other (text : String)
  deriving DecidableEq, Repr

def FileFault.message : FileFault → String
  | .notFound => "No such file or directory (os error 2)"
  | .notDirectory => "Not a directory (os error 20)"
  | .isDirectory => "Is a directory (os error 21)"
  | .nameTooLong => "File name too long (os error 36)"
  | .nulInName => "file name contained an unexpected NUL byte"
  | .invalidArgument => "Invalid argument (os error 22)"
  | .alreadyThere => "File exists (os error 17)"
  | .busy => "Device or resource busy (os error 16)"
  | .notText => "stream did not contain valid UTF-8"
  | .other text => text

/-- Operations on files by path. A text is read and written as UTF-8; a temporary file is a new one,
and renaming it replaces the target in one step. -/
structure Files (m : Type → Type) where
  isPresent : Path → m (Except FileFault Bool)
  read : Path → m (Except FileFault String)
  createTemporary : (folder : Path) → m (Except FileFault Path)
  write : Path → (text : String) → m (Except FileFault Unit)
  sync : Path → m (Except FileFault Unit)
  rename : (source target : Path) → m (Except FileFault Unit)
  remove : Path → m Unit
  createFolders : Path → m (Except FileFault Unit)

end Phrasebook
