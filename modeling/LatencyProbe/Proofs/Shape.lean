import LatencyProbe.Proofs.Json.Fields
import LatencyProbe.Proofs.Request

/-!
# The shape of a body

A body is read out of a value that was read before, a join or a move by itself straight off the
text. Both ways come to the same: on any document a body is the join that is read off the text, or
else the move, or it is refused because both are. On other texts they may differ, since a move
passes over what a body has to read.

A join is a move with a character among its members. So a member `character` makes a join of a move
exactly if it is the only one and is a character in its own right; else the move stays as it is.
-/

namespace LatencyProbe

open Json (Reader)
open Json.Fields (ofMembers_cons_eq_some)

theorem Position.agrees_reader : reader.Agrees := by
  have hfields : fields.Agree := ⟨Reader.agrees_double, Reader.agrees_double,
    Reader.agrees_double, Reader.agrees_double, trivial⟩
  exact Reader.agrees_record _ _ hfields (by decide)

theorem Character.agrees_reader : reader.Agrees := by
  have hfields : fields.Agree := ⟨Reader.agrees_word, Reader.agrees_text, Reader.agrees_text,
    Reader.agrees_word, Reader.agrees_word, Reader.agrees_word, trivial⟩
  exact Reader.agrees_record _ _ hfields (by decide)

namespace Move

theorem agrees_reader : reader.Agrees := by
  have hfields : fields.Agree :=
    ⟨Reader.agrees_word, Reader.agrees_word, Position.agrees_reader, trivial⟩
  exact Reader.agrees_record _ _ hfields (by decide)

/-- The values of a move in the order of its fields. -/
def toRow (body : Move) : Json.Row [UInt32, UInt32, Position] :=
  (body.clientId, body.characterId, body.position, ())

theorem ofJson_object_eq_some {ms : List (String × Json)} {body : Move} :
    reader.ofJson (.object ms) = some body ↔ fields.ofMembers ms = some body.toRow :=
  Reader.ofJson_object_eq_some toRow (fun _ => rfl) (fun _ => rfl)

/-- A character is nothing to a move. -/
theorem ofJson_insert_character (before after : List (String × Json)) (v : Json) :
    reader.ofJson (.object (before ++ ("character", v) :: after)) =
      reader.ofJson (.object (before ++ after)) := by
  have hkey : "character" ∉ fields.keys := by decide
  exact congrArg (Option.map _) (Json.Fields.ofMembers_insert hkey before after)

/-- The join with a character that is otherwise like a move. -/
def withCharacter (body : Move) (character : Character) : Join where
  clientId := body.clientId
  characterId := body.characterId
  character := character
  position := body.position

end Move

namespace Join

theorem agrees_reader : reader.Agrees := by
  have hfields : fields.Agree := ⟨Reader.agrees_word, Reader.agrees_word,
    Character.agrees_reader, Position.agrees_reader, trivial⟩
  exact Reader.agrees_record _ _ hfields (by decide)

/-- The move that a join is without its character. -/
def toMove (body : Join) : Move where
  clientId := body.clientId
  characterId := body.characterId
  position := body.position

/-- The field of a join that a move does not have. -/
def characterField : Json.Field Character := ⟨"character", Character.reader⟩

/-- The values of a join in the order of its fields. -/
def toRow (body : Join) : Json.Row [UInt32, UInt32, Character, Position] :=
  (body.clientId, body.characterId, body.character, body.position, ())

theorem ofJson_object_eq_some {ms : List (String × Json)} {body : Join} :
    reader.ofJson (.object ms) = some body ↔ fields.ofMembers ms = some body.toRow :=
  Reader.ofJson_object_eq_some toRow (fun _ => rfl) (fun _ => rfl)

/-- A join is a move with a character among its members. -/
theorem ofJson_object_iff {ms : List (String × Json)} {body : Join} :
    reader.ofJson (.object ms) = some body ↔
      Move.reader.ofJson (.object ms) = some body.toMove ∧
        characterField.Finds ms body.character := by
  rw [ofJson_object_eq_some, Move.ofJson_object_eq_some]
  -- The character is third of the four fields, so the two before it are taken off and put back.
  constructor
  · intro h
    obtain ⟨hclient, h⟩ := ofMembers_cons_eq_some.mp h
    obtain ⟨hid, h⟩ := ofMembers_cons_eq_some.mp h
    obtain ⟨hcharacter, hposition⟩ := ofMembers_cons_eq_some.mp h
    have hrest : Json.Fields.ofMembers Move.fields.2 ms = some (_, _) :=
      ofMembers_cons_eq_some.mpr ⟨hid, hposition⟩
    exact ⟨ofMembers_cons_eq_some.mpr ⟨hclient, hrest⟩, hcharacter⟩
  · rintro ⟨hmove, hcharacter⟩
    obtain ⟨hclient, h⟩ := ofMembers_cons_eq_some.mp hmove
    obtain ⟨hid, hposition⟩ := ofMembers_cons_eq_some.mp h
    have hlast : Json.Fields.ofMembers fields.2.2 ms = some (_, _) :=
      ofMembers_cons_eq_some.mpr ⟨hcharacter, hposition⟩
    have hrest : Json.Fields.ofMembers fields.2 ms = some (_, _) :=
      ofMembers_cons_eq_some.mpr ⟨hid, hlast⟩
    exact ofMembers_cons_eq_some.mpr ⟨hclient, hrest⟩

/-- What is read as a join and as a move is read alike. An array is never read as both. -/
theorem toMove_eq_of_ofJson {v : Json} {join : Join} {move : Move}
    (hjoin : reader.ofJson v = some join) (hmove : Move.reader.ofJson v = some move) :
    join.toMove = move := by
  cases v with
  | object ms => exact Option.some.inj ((ofJson_object_iff.mp hjoin).1.symm.trans hmove)
  | array vs =>
      obtain ⟨_, hitems, -⟩ := Option.map_eq_some_iff.mp hjoin
      obtain ⟨_, hitems', -⟩ := Option.map_eq_some_iff.mp hmove
      have hfour := Json.Fields.length_eq_of_ofItems hitems
      have hthree := Json.Fields.length_eq_of_ofItems hitems'
      rw [hfour] at hthree
      cases hthree
  | null | bool | number | string => cases hjoin

/-- The join that a move becomes by a character that stands anywhere among its members. -/
theorem ofJson_insert_character {before after : List (String × Json)} {v : Json} {move : Move}
    (hmove : Move.reader.ofJson (.object (before ++ ("character", v) :: after)) = some move)
    {join : Join} :
    reader.ofJson (.object (before ++ ("character", v) :: after)) = some join ↔
      (∀ m ∈ before ++ after, m.1 ≠ "character") ∧
        Character.reader.ofJson v = some join.character ∧
          join = move.withCharacter join.character := by
  have hjoin : reader.ofJson (.object (before ++ ("character", v) :: after)) = some join ↔
      some move = some join.toMove ∧ (∀ m ∈ before ++ after, m.1 ≠ "character") ∧
        Character.reader.ofJson v = some join.character := by
    rw [ofJson_object_iff, hmove]
    exact and_congr_right' (Json.Field.finds_insert rfl)
  rw [hjoin]
  constructor
  · rintro ⟨heq, honly, hcharacter⟩
    cases heq
    exact ⟨honly, hcharacter, rfl⟩
  · rintro ⟨honly, hcharacter, heq⟩
    have hmove' : move = join.toMove := by
      rw [heq]
      rfl
    exact ⟨congrArg some hmove', honly, hcharacter⟩

end Join

namespace Body

theorem agrees_join : (Join.reader.map join).Agrees := Reader.agrees_map Join.agrees_reader join

theorem agrees_move : (Move.reader.map move).Agrees := Reader.agrees_map Move.agrees_reader move

variable {text : List Char} {raw : Json}

theorem document_eq_join_iff (h : Json.Document text raw) {body : Join} :
    reader.document text = .ok (.join body) ↔ Join.reader.document text = .ok body := by
  rw [reader, Reader.document_firstOf_eq_ok agrees_join agrees_move h, Reader.document_map,
    Reader.document_map, map_eq_ok_iff, map_eq_ok_iff]
  simp

theorem document_eq_move_iff (h : Json.Document text raw) {body : Move} :
    reader.document text = .ok (.move body) ↔
      (∃ error, Join.reader.document text = .error error) ∧
        Move.reader.document text = .ok body := by
  rw [reader, Reader.document_firstOf_eq_ok agrees_join agrees_move h, Reader.document_map,
    Reader.document_map, map_eq_ok_iff, map_eq_ok_iff]
  cases Join.reader.document text <;> simp

theorem document_eq_error_iff (h : Json.Document text raw) {error : Json.Error} :
    reader.document text = .error error ↔
      (∃ error, Join.reader.document text = .error error) ∧
        (∃ error, Move.reader.document text = .error error) ∧
          error = ⟨.noVariant "RequestBody", none⟩ := by
  rw [reader, Reader.document_firstOf_eq_error agrees_join agrees_move h, Reader.document_map,
    Reader.document_map]
  cases Join.reader.document text <;> cases Move.reader.document text <;> simp

/-- On any document a body is what its two shapes are by themselves: the join that it is read as,
else the move, and refused if it is neither. What has both shapes is a join, and the move is that
join without its character. A member `character` that is put in does not matter to a move, and makes
a move a join exactly if it is the only one and its text is one of a character. -/
theorem document_reads_first_shape {text : List Char} {value : Json}
    (h : Json.parse text = .ok value) :
    (∀ join, reader.document text = .ok (.join join) ↔ Join.reader.document text = .ok join) ∧
    (∀ move, reader.document text = .ok (.move move) ↔
      (∃ error, Join.reader.document text = .error error) ∧
        Move.reader.document text = .ok move) ∧
    (∀ error, reader.document text = .error error ↔
      (∃ error, Join.reader.document text = .error error) ∧
        (∃ error, Move.reader.document text = .error error) ∧
          error = ⟨.noVariant "RequestBody", none⟩) ∧
    (∀ join move, Join.reader.document text = .ok join → Move.reader.document text = .ok move →
      reader.document text = .ok (.join join) ∧ join.toMove = move) ∧
    ∀ before v after, Json.Document text (.object (before ++ ("character", v) :: after)) →
      (∀ plain, Json.Document plain (.object (before ++ after)) → ∀ move,
        (Move.reader.document text = .ok move ↔ Move.reader.document plain = .ok move)) ∧
      ∀ move, Move.reader.document text = .ok move → ∀ join,
        (reader.document text = .ok (.join join) ↔
          (∀ m ∈ before ++ after, m.1 ≠ "character") ∧
            (∃ inner, inner <:+: text ∧ Json.Document inner v ∧
              Character.reader.document inner = .ok join.character) ∧
                join = move.withCharacter join.character) := by
  obtain ⟨raw, hraw, -⟩ := Json.parse_eq_ok.mp h
  refine ⟨?_, ?_, ?_, ?_, ?_⟩
  · intro join
    exact document_eq_join_iff hraw
  · intro move
    exact document_eq_move_iff hraw
  · intro error
    exact document_eq_error_iff hraw
  · intro join move hjoin hmove
    have hjoin' := (Reader.document_eq_ok Join.agrees_reader hraw).mp hjoin
    have hmove' := (Reader.document_eq_ok Move.agrees_reader hraw).mp hmove
    exact ⟨(document_eq_join_iff hraw).mpr hjoin, Join.toMove_eq_of_ofJson hjoin' hmove'⟩
  · intro before v after htext
    constructor
    · intro plain hplain move
      rw [Reader.document_eq_ok Move.agrees_reader htext, Move.ofJson_insert_character,
        Reader.document_eq_ok Move.agrees_reader hplain]
    · intro move hmove join
      have hmem : ("character", v) ∈ before ++ ("character", v) :: after :=
        List.mem_append_right before (List.mem_cons_self ..)
      have hmove' := (Reader.document_eq_ok Move.agrees_reader htext).mp hmove
      rw [document_eq_join_iff htext, Reader.document_eq_ok Join.agrees_reader htext,
        Join.ofJson_insert_character hmove',
        Reader.ofJson_member_eq_some Character.agrees_reader htext hmem]

/-- Into a move a character is put and makes it a join; a null in its place leaves it a move. -/
theorem document_reads_first_shape_put_in :
    let before : List (String × Json) := [("clientId", .word 1)]
    let after : List (String × Json) :=
      [("characterId", .word 6), ("position", .array [.word 0, .word 0, .word 0, .word 0])]
    let text := fun v => (Json.object (before ++ ("character", v) :: after)).compact
    let character := Join.sample.character
    let move : Move := ⟨1, 6, Join.sample.position⟩
    ((∃ value, Json.parse (text character.toJson) = .ok value) ∧
      reader.document (text character.toJson) = .ok (.join (move.withCharacter character))) ∧
    (∃ value, Json.parse (text .null) = .ok value) ∧
      reader.document (text .null) = .ok (.move move) := by
  intro before after text character move
  have hplain : Json.Document (Json.object (before ++ after)).compact
      (.object (before ++ after)) := by
    refine Json.document_compact (by decide) ?_
    simp [before, after, Json.reread, Json.rereadMembers, Json.rereadItems, Json.word]
  have htext {v : Json} (hdepth : v.depth ≤ 1) (hreread : v.reread = v) :
      Json.Document (text v) (.object (before ++ ("character", v) :: after)) := by
    refine Json.document_compact ?_ ?_
    · simp only [before, after, List.cons_append, List.nil_append, Json.depth, Json.depthMembers,
        Json.depthItems, Json.word, Json.maxDepth]
      omega
    · simp [before, after, Json.reread, Json.rereadMembers, Json.rereadItems, Json.word, hreread]
  have hreread : character.toJson.reread = character.toJson := by
    simp [Character.toJson, Json.reread, Json.rereadMembers, Json.word]
  have hinner : Json.Document character.toJson.compact character.toJson :=
    Json.document_compact (by decide) hreread
  have hcharacter := htext (show character.toJson.depth ≤ 1 by decide) hreread
  have hnull := htext (show Json.null.depth ≤ 1 by decide) rfl
  have hmove : Move.reader.document (Json.object (before ++ after)).compact = .ok move := by
    decide +kernel
  have hparse := Json.parse_eq_ok.mpr ⟨_, hcharacter, rfl⟩
  have hparse' := Json.parse_eq_ok.mpr ⟨_, hnull, rfl⟩
  refine ⟨⟨⟨_, hparse⟩, ?_⟩, ⟨_, hparse'⟩, ?_⟩
  · obtain ⟨-, -, -, -, hput⟩ := document_reads_first_shape hparse
    obtain ⟨hplain', hjoin⟩ := hput before _ after hcharacter
    have hstays := (hplain' _ hplain move).mpr hmove
    have honly : ∀ m ∈ before ++ after, m.1 ≠ "character" := by decide
    have hinfix : character.toJson.compact <:+: text character.toJson := by decide +kernel
    have hread : Character.reader.document character.toJson.compact = .ok character := by
      decide +kernel
    exact (hjoin move hstays _).mpr ⟨honly, ⟨_, hinfix, hinner, hread⟩, rfl⟩
  · obtain ⟨-, hmoves, -, -, hput⟩ := document_reads_first_shape hparse'
    obtain ⟨hplain', -⟩ := hput before _ after hnull
    have hstays := (hplain' _ hplain move).mpr hmove
    have herror : Join.reader.document (text .null) =
        .error ⟨.wrongType .null (.record "Character"), some ⟨1, 30⟩⟩ := by decide +kernel
    exact (hmoves move).mpr ⟨⟨_, herror⟩, hstays⟩

/-- A text with a number out of range is no document. Read as a move it is still accepted, since the
number belongs to no field. -/
example :
    let text :=
      "\x7b\"clientId\":1,\"characterId\":6,\"position\":[0,0,0,0],\"x\":1e999\x7d".toList
    Move.reader.document text = .ok ⟨1, 6, Join.sample.position⟩ ∧
      reader.document text = .error ⟨.numberOutOfRange, some ⟨1, 60⟩⟩ := by
  decide +kernel

end Body
end LatencyProbe
