import Converge.Text.Search

/-!
# Names of notification channels

A database tells about a changed key on a channel named `__keyspace@<number>__:<key>`, and the key
of a row is `<table>|<row>`. `parse?` takes such a name apart at the first colon and at the first
bar behind it.
-/

namespace Converge.Store.Keyspace

/-- How the name of every channel of changed keys begins. -/
def marker : String := "__keyspace@"

/-- The table and the row of a channel. -/
def parse? (channel : String) : Option (String × String) :=
  match Text.splitFirst ':' channel with
  | none => none
  | some (front, key) =>
    if marker.toList.isPrefixOf front.toList then Text.splitFirst '|' key else none

end Converge.Store.Keyspace
