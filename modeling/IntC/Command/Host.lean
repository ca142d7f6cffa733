/-
# What a run asks of its host

A run of the command touches the world in four ways: it reads a file, it writes a file, it prints on
the standard output, and it reports to its user.  These steps are all that it knows of the host
that it runs on, so the same run can be made on the files of a system and in a folder in memory.
-/
namespace IntC.Command

/-- Why a file cannot be read or written. -/
inductive Fault
  | notFound
  | isDirectory
  | notDirectory
  | notText
  | other (text : String)
  deriving DecidableEq, Repr, Inhabited

/-- The fault in words. -/
def Fault.message : Fault → String
  | notFound => "No such file or directory (os error 2)"
  | isDirectory => "Is a directory (os error 21)"
  | notDirectory => "Not a directory (os error 20)"
  | notText => "stream did not contain valid UTF-8"
  | other text => text

/-- The steps that a run takes outside of itself. -/
structure Host (m : Type → Type) where
  /-- The text of the file that a path leads to. -/
  read (path : String) : m (Except Fault String)
  /-- Makes the text all that is in the file that a path leads to. -/
  write (path text : String) : m (Except Fault Unit)
  /-- Writes a text on the standard output. -/
  print (text : String) : m (Except Fault Unit)
  /-- Reports a text to the user, apart from the output. -/
  report (text : String) : m Unit

end IntC.Command
