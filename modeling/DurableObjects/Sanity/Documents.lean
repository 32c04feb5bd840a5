import DurableObjects.Sanity.Decoding
import DurableObjects.Spec.Schemas

/-! Documents that the host writes, as any strict reader takes them apart: strings, lists of them and
tagged objects come back as they were, so only numbers and depth are left to the reader. -/

namespace LDO

open Json

variable {R : Json.Reader Number}

theorem readBack_string (d : ℕ) (s : String) :
    Json.readBack serdeWriter R d (.str s) = some (.str s) := by
  simp [Json.readBack, serdeWriter]

theorem readBack_strings (d : ℕ) (strings : List String) :
    Json.readBack serdeWriter R (d + 1) (stringsJson strings) = some (stringsJson strings) := by
  have hitems : readBackItems serdeWriter R d (strings.map .str) = some (strings.map .str) := by
    induction strings with
    | nil => rfl
    | cons s strings ih => simp [readBackItems, readBack_string, ih]
  rw [stringsJson, Json.readBack, hitems]
  rfl

theorem asList_strings (strings : List String) : asList asString (stringsJson strings) = some strings := by
  rw [stringsJson, asList]
  induction strings with
  | nil => rfl
  | cons s strings ih => simp [asString, ih]

theorem readBackFields_serde_cons (d : ℕ) (k : String) (v : Value) (fs : List (String × Value)) :
    readBackFields serdeWriter R d ((k, v) :: fs) =
      (Json.readBack serdeWriter R d v).bind fun t =>
        (readBackFields serdeWriter R d fs).map fun ts => (k, t) :: ts := by
  rw [readBackFields]
  cases Json.readBack serdeWriter R d v <;> simp [serdeWriter]

theorem readBackFields_serde_nil (d : ℕ) : readBackFields serdeWriter R d [] = some [] := by
  rw [readBackFields]

theorem readBack_taggedJson (d : ℕ) (tag : String) (fields : List (String × Value)) :
    Json.readBack serdeWriter R (d + 1) (taggedJson tag fields) =
      (readBackFields serdeWriter R d fields).map (taggedJson tag) := by
  rw [taggedJson, Json.readBack, readBackFields_serde_cons, readBack_string, Option.bind_some, Option.map_map]
  rfl

theorem readBack_message (d : ℕ) (message : ActorSocketMessage) :
    Json.readBack serdeWriter R (d + 1) message.toJson = some message.toJson := by
  cases message <;>
    simp [ActorSocketMessage.toJson, taggedJson, Json.readBack, readBackFields, serdeWriter]

theorem message_ofJson_toJson (message : ActorSocketMessage) :
    ActorSocketMessage.ofJson message.toJson = some message := by
  cases message <;>
    simp [ActorSocketMessage.toJson, taggedJson, ActorSocketMessage.ofJson, asTagged, field, asString]

/-- `JSON.parse` of what `serde_json` prints. -/
theorem jsonParse_toVec (parser : JsonParse) (v : Value) :
    jsonParse parser (toVec v) = Json.readBack serdeWriter parser.toReader parser.maxDepth v := by
  rw [jsonParse, toVec, fromUTF8?_toUTF8]
  simp only [String.toList_ofList]
  have hread := read_print serdeWriter parser.toReader v [] rfl
  rwa [List.append_nil] at hread

end LDO
