import Altior.Acp.LineChunks
import Altior.Acp.Script

/-!
# Messages over lines

What one side encodes and writes, the other side reads and decodes to the same
messages, however the stream is cut on its way.
-/

namespace Altior.Acp

open Domain Lib
open List (Forall₂)

section

variable [AcpSerde]

/-- A value is classified by its members. -/
theorem RpcMessage.ofValue_congr {value value' : Json} (hobject : value'.isObject = value.isObject)
    (hget : ∀ key, value'.get key = value.get key) :
    RpcMessage.ofValue value' = RpcMessage.ofValue value := by
  unfold RpcMessage.ofValue Json.getStr
  simp only [hobject, hget]

/-- The library writes the value in one line and parses that line back to an object with
the same members, and an error object back to the error. -/
structure Carried (m : RpcMessage) : Prop where
  parses : ∃ value, AcpSerde.fromStr (AcpSerde.toStr m.toValue) = .ok value ∧
    value.isObject = m.toValue.isObject ∧ ∀ key, value.get key = m.toValue.get key
  oneLine : '\n' ∉ (AcpSerde.toStr m.toValue).toList
  error : ∀ id e, m = .errorResponse id e → AcpSerde.rpcError e.toJson = .ok e

omit [AcpSerde] in
/-- An id of either kind is read back. -/
theorem mapM_decodeId (id : RpcId) : (some id.toJson).mapM decodeId = Except.ok (some id) := by
  cases id <;> rfl

/-- A message is classified as what it is. -/
theorem RpcMessage.ofValue_toValue {m : RpcMessage} (h : Carried m) :
    RpcMessage.ofValue m.toValue = .ok m := by
  cases m with
  | request id method params =>
    change (do
      let id ← (some id.toJson).mapM decodeId
      _) = _
    rw [mapM_decodeId]
    rfl
  | notification method params => rfl
  | response id result =>
    change (do
      let id ← (some id.toJson).mapM decodeId
      _) = _
    rw [mapM_decodeId]
    rfl
  | errorResponse id error =>
    change (do
      let id ← (some id.toJson).mapM decodeId
      _) = _
    rw [mapM_decodeId]
    change (do pure (errorResponse id (← serdeError (AcpSerde.rpcError error.toJson)))) = _
    rw [h.error id error rfl]
    rfl

/-- The line of a message is decoded to the message. -/
theorem RpcMessage.decode_encode {m : RpcMessage} (h : Carried m) :
    RpcMessage.decode m.encode = .ok m := by
  obtain ⟨value, hparse, hobject, hget⟩ := h.parses
  unfold RpcMessage.decode RpcMessage.encode
  rw [hparse]
  change RpcMessage.ofValue value = _
  rw [RpcMessage.ofValue_congr hobject hget]
  exact RpcMessage.ofValue_toValue h

omit [AcpSerde] in
theorem encodeLine_eq_ok {line : String} {bytes : List UInt8} (h : encodeLine line = .ok bytes) :
    (asBytes line).length + 1 ≤ maxLineBytes ∧ bytes = asBytes line ++ [newlineByte] := by
  unfold encodeLine at h
  dsimp only at h
  split at h
  · cases h
  · rename_i hfits
    cases h
    exact ⟨Nat.not_lt.1 hfits, rfl⟩

omit [AcpSerde] in
theorem encodeLine_of_le {line : String} (h : (asBytes line).length + 1 ≤ maxLineBytes) :
    encodeLine line = .ok (asBytes line ++ [newlineByte]) := by
  unfold encodeLine
  exact if_neg (Nat.not_lt.2 h)

/-- The line of a message is one item of the stream. -/
theorem Carried.reads {m : RpcMessage} (h : Carried m) {bytes : List UInt8}
    (hencode : encodeLine m.encode = .ok bytes) : lines.Reads bytes m.encode := by
  obtain ⟨hfits, rfl⟩ := encodeLine_eq_ok hencode
  exact lines_reads_iff.2 ⟨fun hnewline => h.oneLine (newline_of_mem_asBytes hnewline), hfits, rfl⟩

/-- **Messages over lines.**  However the encoded lines of some messages are cut, the
decoder delivers a line for each of them without an error, and the lines decode to the
messages. -/
theorem lines_carry_messages (messages : List RpcMessage) (encoded chunks : List (List UInt8))
    (hcarried : ∀ m ∈ messages, Carried m)
    (hencoded : Forall₂ (fun m bytes => encodeLine (RpcMessage.encode m) = .ok bytes) messages encoded)
    (hchunks : chunks.flatten = encoded.flatten) :
    (delivered (LineDecoder.new.feeds chunks)).mapM RpcMessage.decode = .ok messages ∧
      firstError (LineDecoder.new.feeds chunks) = none := by
  have hreads : Forall₂ lines.Reads encoded (messages.map RpcMessage.encode) := by
    rw [List.forall₂_map_right_iff]
    refine (List.forall₂_iff_get.2 ⟨hencoded.length_eq, fun i hi hi' => ?_⟩ :
      Forall₂ (fun m bytes => lines.Reads bytes (RpcMessage.encode m)) messages encoded).flip
    exact (hcarried _ (List.getElem_mem hi)).reads ((List.forall₂_iff_get.1 hencoded).2 i hi hi')
  have hstream : chunks.flatten = encoded.flatten ++ [] := hchunks.trans (List.append_nil _).symm
  obtain ⟨hdelivered, herror, -⟩ := Incremental.delivered_of_more hstream hreads lines.next_nil
  rw [LineDecoder.feeds_eq]
  refine ⟨?_, herror⟩
  rw [show LineDecoder.new.buffer = [] from rfl, hdelivered]
  clear hstream hdelivered herror hreads hencoded
  induction messages with
  | nil => rfl
  | cons m messages ih =>
    rw [List.map_cons, List.mapM_cons, RpcMessage.decode_encode (hcarried m List.mem_cons_self)]
    change (do
      let rest ← (messages.map RpcMessage.encode).mapM RpcMessage.decode
      pure (m :: rest)) = _
    rw [ih fun m' hm => hcarried m' (List.mem_cons_of_mem m hm)]
    rfl

end

section Sample

local instance : AcpSerde := plainSerde

/-- The agent says something. -/
def deltaMessage : RpcMessage :=
  .notification "session/update" (.object [("update", .object
    [("sessionUpdate", str "agent_message_chunk"),
      ("content", .object [("type", str "text"), ("text", str "hi")])])])

/-- The agent refuses. -/
def errorMessage : RpcMessage := .errorResponse (.number 3) ⟨7, "busy"⟩

set_option maxRecDepth 20000 in
theorem encode_delta : deltaMessage.encode = deltaLine := by decide

theorem encode_error : errorMessage.encode = errorLine := by decide

set_option maxRecDepth 20000 in
theorem plainFromStr_delta : plainFromStr deltaLine = .ok deltaMessage.toValue := by
  unfold plainFromStr
  rw [if_neg (by decide), if_neg (by decide), if_neg (by decide), if_pos rfl]
  rfl

theorem plainFromStr_error : plainFromStr errorLine = .ok errorMessage.toValue := by
  unfold plainFromStr
  rw [if_neg (by decide), if_neg (by decide), if_pos rfl]
  rfl

set_option maxRecDepth 20000 in
theorem carried_delta : Carried deltaMessage where
  parses := ⟨_, (congrArg plainFromStr encode_delta).trans plainFromStr_delta, rfl, fun _ => rfl⟩
  oneLine := by decide
  error _ _ h := nomatch h

theorem carried_error : Carried errorMessage where
  parses := ⟨_, (congrArg plainFromStr encode_error).trans plainFromStr_error, rfl, fun _ => rfl⟩
  oneLine := by decide
  error id e h := by
    cases h
    rfl

set_option maxRecDepth 20000 in
/-- Two lines, the first newline in one chunk with the second line. -/
theorem lines_carry_sample :
    (delivered (LineDecoder.new.feeds
        [asBytes deltaLine, newlineByte :: asBytes errorLine, [newlineByte]])).mapM
        RpcMessage.decode = .ok [deltaMessage, errorMessage] ∧
      firstError (LineDecoder.new.feeds
        [asBytes deltaLine, newlineByte :: asBytes errorLine, [newlineByte]]) = none := by
  refine lines_carry_messages [deltaMessage, errorMessage]
    [asBytes deltaLine ++ [newlineByte], asBytes errorLine ++ [newlineByte]] _ ?_ ?_ ?_
  · simp only [List.forall_mem_cons]
    exact ⟨carried_delta, carried_error, fun _ h => absurd h List.not_mem_nil⟩
  · refine .cons ?_ (.cons ?_ .nil)
    · rw [encode_delta]
      exact encodeLine_of_le (by decide)
    · rw [encode_error]
      exact encodeLine_of_le (by decide)
  · simp only [List.flatten_cons, List.flatten_nil, List.append_assoc, List.cons_append,
      List.nil_append, List.append_nil]

end Sample

end Altior.Acp
