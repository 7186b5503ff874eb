import Provisioning.Os.Error
/-!
Errors of the file store.

The store reads and writes files and configuration documents. Its errors
name the path concerned and the cause: a system error, a document that does
not parse in its format, a value that cannot be written in a format, a file
name whose extension is no known format, or a lock held by another writer.
-/

namespace Provisioning

/-- Why a file-store operation failed. -/
inductive StoreError where
  | io (path : String) (cause : OsError)
  | parse (path : String) (format : String) (message : String)
  | serialize (path : String) (format : String) (message : String)
  | unsupportedFormat (extension : String)
  | lockFailed (path : String)
  deriving Repr

/-- The error as shown to users. -/
def StoreError.message : StoreError → String
  | .io path cause => path ++ ": " ++ cause.message
  | .parse path format message => "invalid " ++ format ++ " in " ++ path ++ ": " ++ message
  | .serialize path format message => "cannot write " ++ path ++ " as " ++ format ++ ": " ++ message
  | .unsupportedFormat extension => "unsupported configuration format '." ++ extension ++ "'"
  | .lockFailed path => "could not lock " ++ path

end Provisioning
