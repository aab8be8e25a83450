import StepScope.Renderer
import StepScope.Report
import StepScope.Settings

/-!
The address book of the settings. Its names are gone through in the order of their keys; the first
key that is no address is reported, and of two spellings of an address the later one counts.
-/

namespace StepScope.Settings

/-- Adds names to a book; `read` reads the addresses. -/
def addNames (read : Address.Reader) (book : AddressBook) :
    List (Text × Text) → Except Report AddressBook
  | [] => .ok book
  | (key, label) :: names =>
    match read (Text.trim key) with
    | .ok a => addNames read (book.insert a label) names
    | .error flaw => .error (.invalidName key flaw)

def addressBook (s : Settings) (read : Address.Reader := Address.read) : Except Report AddressBook :=
  addNames read Keyed.empty s.names.entries

/-- The renderer for words; `html` asks for that surface whatever the settings say. -/
def renderer (s : Settings) (html : Bool) : Except Report Renderer :=
  s.addressBook.map fun book => { surface := if html then .html else s.surface, book := some book }

end StepScope.Settings
