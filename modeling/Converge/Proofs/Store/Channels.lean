import Converge.Proofs.Text.Digits
import Converge.Row
import Converge.Store.Keyspace

/-!
# Channels and the rows that they name

A database tells about a key on the channel of its number and the key, and the key of a row is its
table and its name with a bar in between.

* `parse?_of_front`: what stands behind the first colon is taken apart at its first bar, whatever
  stands in it;
* `parse?_eq_some_iff`: what a channel looks like that is taken apart, and into what;
* **`channels_name_rows`**: the channel of a row names the row, and whatever a channel names, joined
  again, is the key that it tells about.
-/

namespace Converge.Store.Keyspace

/-- The channel that a database tells about a key on. -/
def channel (db : Nat) (key : String) : String := marker ++ toString db ++ "__:" ++ key

theorem colon_not_mem_digits (n : Nat) : ':' ∉ (toString n).toList := by
  intro h
  have hdigit : ':'.isDigit = true := Text.isDigit_of_mem ':' (n := n) (by simpa using h)
  exact absurd hdigit (by decide)

/-- The text can stand in front of the colon of a channel. -/
structure IsFront (front : String) : Prop where
  begins : ∃ more, front = "__keyspace@" ++ more
  no_colon : ':' ∉ front.toList

theorem isPrefixOf_marker_iff {front : String} :
    marker.toList.isPrefixOf front.toList = true ↔ ∃ more, front = marker ++ more := by
  rw [List.isPrefixOf_iff_prefix]
  constructor
  · rintro ⟨more, hmore⟩
    refine ⟨.ofList more, ?_⟩
    rw [← String.toList_inj, String.toList_append, String.toList_ofList, hmore]
  · rintro ⟨more, rfl⟩
    exact ⟨more.toList, (String.toList_append).symm⟩

/-- The front of the channel of a database. -/
theorem isFront_number (db : Nat) : IsFront (marker ++ toString db ++ "__") where
  begins := ⟨toString db ++ "__", String.append_assoc⟩
  no_colon := by
    intro h
    simp only [String.toList_append, List.mem_append] at h
    rcases h with (h | h) | h
    · exact absurd h (by decide)
    · exact colon_not_mem_digits db h
    · exact absurd h (by decide)

/-- **Behind the first colon stands the key**, which is taken apart at its first bar. -/
theorem parse?_of_front {front : String} (h : IsFront front) (key : String) :
    parse? (front ++ ":" ++ key) = Text.splitFirst '|' key := by
  have hsplit : Text.splitFirst ':' (front ++ ":" ++ key) = some (front, key) :=
    (Text.splitFirst_eq_some_iff ':').mpr ⟨rfl, h.no_colon⟩
  unfold parse?
  rw [hsplit]
  dsimp only
  rw [if_pos (isPrefixOf_marker_iff.mpr h.begins)]

theorem parse?_channel (db : Nat) (key : String) :
    parse? (channel db key) = Text.splitFirst '|' key := by
  have hchannel : channel db key = marker ++ toString db ++ "__" ++ ":" ++ key := by
    rw [← String.toList_inj]
    simp [channel]
  rw [hchannel, parse?_of_front (isFront_number db)]

theorem splitFirst_bar_iff {key t k : String} :
    Text.splitFirst '|' key = some (t, k) ↔ key = RowKey.full ⟨t, k⟩ ∧ '|' ∉ t.toList :=
  Text.splitFirst_eq_some_iff '|'

/-- **A channel that is taken apart is a front, a colon and the key of the row.** -/
theorem parse?_eq_some_iff {c t k : String} :
    parse? c = some (t, k) ↔
      '|' ∉ t.toList ∧ ∃ front, IsFront front ∧ c = front ++ ":" ++ RowKey.full ⟨t, k⟩ := by
  constructor
  · intro h
    unfold parse? at h
    split at h
    · cases h
    · rename_i front key hsplit
      obtain ⟨rfl, hcolon⟩ := (Text.splitFirst_eq_some_iff ':').mp hsplit
      split at h
      · rename_i hmarker
        obtain ⟨rfl, hbar⟩ := splitFirst_bar_iff.mp h
        exact ⟨hbar, front, ⟨isPrefixOf_marker_iff.mp hmarker, hcolon⟩, rfl⟩
      · cases h
  · rintro ⟨hbar, front, hfront, rfl⟩
    rw [parse?_of_front hfront]
    exact splitFirst_bar_iff.mpr ⟨rfl, hbar⟩

/-- **Channels name rows.** The channel of a row whose table has no bar in its name names the row, for
    every number of a database and whatever else stands in the names. A channel names a row exactly if
    it is a front without a colon, a colon and the key of the row; so what the channel of a key names,
    joined again, is the key. -/
theorem channels_name_rows :
    (∀ (db : Nat) (id : RowKey), '|' ∉ id.table.toList →
      parse? (channel db id.full) = some (id.table, id.key)) ∧
    (∀ c t k : String, parse? c = some (t, k) ↔ '|' ∉ t.toList ∧
      ∃ front, IsFront front ∧ c = front ++ ":" ++ (t ++ "|" ++ k)) ∧
    ∀ (db : Nat) (key t k : String), parse? (channel db key) = some (t, k) →
      t ++ "|" ++ k = key := by
  refine ⟨?_, fun c t k => parse?_eq_some_iff, ?_⟩
  · intro db id hbar
    rw [parse?_channel]
    exact splitFirst_bar_iff.mpr ⟨rfl, hbar⟩
  · intro db key t k h
    rw [parse?_channel] at h
    exact (splitFirst_bar_iff.mp h).1.symm

/-- Colons stand in both names, and a bar in that of the row. -/
theorem channels_name_rows_colons :
    '|' ∉ "a:b".toList ∧ parse? "__keyspace@4__:a:b|x|y:z" = some ("a:b", "x|y:z") ∧
      "a:b" ++ "|" ++ "x|y:z" = "a:b|x|y:z" := by
  have hbar : '|' ∉ "a:b".toList := by decide
  have hparse : parse? "__keyspace@4__:a:b|x|y:z" = some ("a:b", "x|y:z") :=
    channels_name_rows.1 4 ⟨"a:b", "x|y:z"⟩ hbar
  exact ⟨hbar, hparse, channels_name_rows.2.2 4 "a:b|x|y:z" _ _ hparse⟩

end Converge.Store.Keyspace
