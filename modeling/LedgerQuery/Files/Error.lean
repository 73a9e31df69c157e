import LedgerQuery.Text.Quoted

namespace LedgerQuery

inductive FileError
  | notFound (path : String)
  | isDirectory (path : String)
  | notDirectory (path : String)
deriving DecidableEq

namespace FileError

def path : FileError → String
  | notFound p | isDirectory p | notDirectory p => p

def label : FileError → String
  | notFound _ => "FileNotFoundError"
  | isDirectory _ => "IsADirectoryError"
  | notDirectory _ => "NotADirectoryError"

def reason : FileError → String
  | notFound _ => "[Errno 2] No such file or directory"
  | isDirectory _ => "[Errno 21] Is a directory"
  | notDirectory _ => "[Errno 20] Not a directory"

def message (e : FileError) : String := e.reason ++ ": " ++ Text.quoted e.path

end FileError

end LedgerQuery
