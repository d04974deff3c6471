import LatencyProbe.Proofs.Json.Records
import LatencyProbe.Proofs.Request

/-!
# Requests are read back

What is read from the bytes of a request is worked out on values: its readers agree with
themselves, so that its document is read as the value that it is of. Of that value everything but
the coordinates is as it was written. A coordinate is read from its printed text again, or refused
if it was written as `null`.

A move has no member for a character and is therefore no join.
-/

namespace LatencyProbe

namespace Double

/-- What is read where a double was written. What is not finite has no text of its own. -/
def reread? : Double → Option Double
  | .finite x => some (.finite (Json.Number.float x).reread.toDouble)
  | _ => none

theorem reread?_of_readsBack {x : Double} (h : x.ReadsBack) : x.reread? = some x := by
  cases x with
  | finite x =>
      have hnumber : Json.Scan.number (Json.Number.float x).text = .ok (.float x, []) := h
      rw [reread?, Json.Number.reread, hnumber]
      rfl
  | infinite | nan => cases h

end Double

namespace Json

theorem ofJson_double (x : Double) : Reader.double.ofJson (double x).reread = x.reread? := by
  cases x <;> rfl

theorem ofJson_word (n : UInt32) : Reader.word.ofJson (word n).reread = some n := by
  have hlt := n.toNat_lt
  simp only [word, reread, reread_integer, Reader.word, Reader.ofJudge, found, Judge.word]
  rw [if_pos (by omega)]
  simp [Except.toOption]

theorem ofJson_int64 (n : Int64) : Reader.int64.ofJson (int64 n) = some n := by
  have hlt := n.toInt_lt
  simp only [int64, Reader.int64, Reader.ofJudge, found, Judge.int64]
  rw [if_pos (by omega), Int64.ofInt_toInt]
  rfl

theorem ofJson_text (s : String) : Reader.text.ofJson (.string s) = some s := rfl

end Json

theorem Event.ofJson_toJson (event : Event) : reader.ofJson event.toJson = some event := by
  cases event <;> rfl

theorem Header.ofJson_toJson (header : Header) : reader.ofJson header.toJson = some header := by
  have hjson : header.toJson = .object (fields.keys.zip
      [.string header.requestId, .int64 header.clientSend, header.event.toJson]) := rfl
  rw [hjson, reader, Json.Reader.ofJson_record_zip _ _ (by decide) rfl]
  simp only [Json.Fields.ofItems_cons]
  simp only [fields, Json.ofJson_text, Json.ofJson_int64, Event.ofJson_toJson]
  rfl

namespace Position

/-- The coordinates of a position, in their order. -/
def coordinates (position : Position) : List Double :=
  [position.x, position.y, position.z, position.rotation]

/-- What is read where a position was written. -/
def reread? (position : Position) : Option Position := do
  let x ← position.x.reread?
  let y ← position.y.reread?
  let z ← position.z.reread?
  let rotation ← position.rotation.reread?
  return ⟨x, y, z, rotation⟩

theorem ofJson_toJson (position : Position) :
    reader.ofJson position.toJson.reread = position.reread? := by
  have hjson : position.toJson.reread = .object (fields.keys.zip
      [(Json.double position.x).reread, (Json.double position.y).reread,
        (Json.double position.z).reread, (Json.double position.rotation).reread]) := rfl
  rw [hjson, reader, Json.Reader.ofJson_record_zip _ _ (by decide) rfl]
  simp only [Json.Fields.ofItems_cons]
  simp only [fields, Json.ofJson_double, reread?]
  cases position.x.reread? <;> cases position.y.reread? <;> cases position.z.reread? <;>
    cases position.rotation.reread? <;> rfl

theorem reread?_of_readsBack {position : Position}
    (h : ∀ x ∈ position.coordinates, x.ReadsBack) : position.reread? = some position := by
  have hreread : ∀ x ∈ position.coordinates, x.reread? = some x :=
    fun x hx => Double.reread?_of_readsBack (h x hx)
  simp only [coordinates, List.forall_mem_cons] at hreread
  obtain ⟨hx, hy, hz, hrotation, -⟩ := hreread
  rw [reread?, hx, hy, hz, hrotation]
  rfl

end Position

theorem Character.ofJson_toJson (character : Character) :
    reader.ofJson character.toJson.reread = some character := by
  have hjson : character.toJson.reread = .object (fields.keys.zip
      [(Json.word character.id).reread, .string character.name, .string character.className,
        (Json.word character.level).reread, (Json.word character.currentHealth).reread,
        (Json.word character.maxHealth).reread]) := rfl
  rw [hjson, reader, Json.Reader.ofJson_record_zip _ _ (by decide) rfl]
  simp only [Json.Fields.ofItems_cons]
  simp only [fields, Json.ofJson_word, Json.ofJson_text]
  rfl

namespace Move

/-- What is read where a move was written. -/
def reread? (body : Move) : Option Move :=
  body.position.reread?.map fun position => { body with position }

theorem ofJson_toJson (body : Move) : reader.ofJson body.toJson.reread = body.reread? := by
  have hjson : body.toJson.reread = .object (fields.keys.zip
      [(Json.word body.clientId).reread, (Json.word body.characterId).reread,
        body.position.toJson.reread]) := rfl
  rw [hjson, reader, Json.Reader.ofJson_record_zip _ _ (by decide) rfl]
  simp only [Json.Fields.ofItems_cons]
  simp only [fields, Json.ofJson_word, Position.ofJson_toJson, reread?]
  cases body.position.reread? <;> rfl

/-- A join whose position is refused is no move either. -/
theorem ofJson_join {body : Join} (h : body.position.reread? = none) :
    reader.ofJson body.toJson.reread = none := by
  have hjson : body.toJson.reread = .object [("clientId", (Json.word body.clientId).reread),
      ("characterId", (Json.word body.characterId).reread),
      ("character", body.character.toJson.reread),
      ("position", body.position.toJson.reread)] := rfl
  have hposition : Position.reader.ofJson body.position.toJson.reread = none :=
    (Position.ofJson_toJson _).trans h
  rw [hjson]
  simp [reader, Json.Reader.record, Json.Fields.ofMembers, fields, Json.ofJson_word, hposition]
  rfl

end Move

namespace Join

/-- What is read where a join was written. -/
def reread? (body : Join) : Option Join :=
  body.position.reread?.map fun position => { body with position }

theorem ofJson_toJson (body : Join) : reader.ofJson body.toJson.reread = body.reread? := by
  have hjson : body.toJson.reread = .object (fields.keys.zip
      [(Json.word body.clientId).reread, (Json.word body.characterId).reread,
        body.character.toJson.reread, body.position.toJson.reread]) := rfl
  rw [hjson, reader, Json.Reader.ofJson_record_zip _ _ (by decide) rfl]
  simp only [Json.Fields.ofItems_cons]
  simp only [fields, Json.ofJson_word, Character.ofJson_toJson, Position.ofJson_toJson, reread?]
  cases body.position.reread? <;> rfl

/-- A join needs a character, and a move is written without one. -/
theorem ofJson_move (body : Move) : reader.ofJson body.toJson.reread = none := by
  have hjson : body.toJson.reread = .object [("clientId", (Json.word body.clientId).reread),
      ("characterId", (Json.word body.characterId).reread),
      ("position", body.position.toJson.reread)] := rfl
  rw [hjson]
  cases hread : reader.ofJson _ with
  | none => rfl
  | some join =>
      have hkey : "character" ∈ fields.keys := by decide
      obtain ⟨v, hmem⟩ := Json.Reader.exists_mem_of_ofJson_record hread _ hkey
      simp at hmem

end Join

namespace Body

/-- The position that a body has. -/
def position : Body → Position
  | .join body => body.position
  | .move body => body.position

/-- What is read where a body was written. -/
def reread? : Body → Option Body
  | .join body => body.reread?.map .join
  | .move body => body.reread?.map .move

theorem ofJson_toJson (body : Body) : reader.ofJson body.toJson.reread = body.reread? := by
  have hfirst : ∀ v, reader.ofJson v =
      (Body.join <$> Join.reader.ofJson v <|> Body.move <$> Move.reader.ofJson v) := fun _ => rfl
  cases body with
  | join body =>
      rw [hfirst, toJson, Join.ofJson_toJson, reread?]
      cases hposition : body.position.reread? with
      | none =>
          rw [Move.ofJson_join hposition, Join.reread?, hposition]
          rfl
      | some position =>
          rw [Join.reread?, hposition]
          rfl
  | move body =>
      rw [hfirst, toJson, Join.ofJson_move, Move.ofJson_toJson]
      rfl

theorem reread?_of_readsBack {body : Body} (h : ∀ x ∈ body.position.coordinates, x.ReadsBack) :
    body.reread? = some body := by
  cases body with
  | join body =>
      have hposition : body.position.reread? = some body.position :=
        Position.reread?_of_readsBack h
      rw [reread?, Join.reread?, hposition]
      rfl
  | move body =>
      have hposition : body.position.reread? = some body.position :=
        Position.reread?_of_readsBack h
      rw [reread?, Move.reread?, hposition]
      rfl

end Body

theorem Header.agrees_reader : reader.Agrees := by
  have hfields : fields.Agree :=
    ⟨Json.Reader.agrees_text, Json.Reader.agrees_int64, Json.Reader.agrees_variant _, trivial⟩
  exact Json.Reader.agrees_record _ _ hfields (by decide)

namespace Envelope

/-- What is read where an envelope was written. -/
def reread? (e : Envelope) : Option Envelope := e.body.reread?.map fun body => { e with body }

theorem agrees_reader : reader.Agrees := by
  have hfields : fields.Agree :=
    ⟨Header.agrees_reader, Json.Reader.agrees_firstOf _ _ _, trivial⟩
  exact Json.Reader.agrees_record _ _ hfields (by decide)

end Envelope
end LatencyProbe
