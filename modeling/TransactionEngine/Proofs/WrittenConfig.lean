import TransactionEngine.Config.Load
import TransactionEngine.Engine
import TransactionEngine.Proofs.DocumentsReadBack

/-!
# Configurations are read back

A configuration is what loading its written form gives. So one that was loaded, from whatever text,
is the same after it was written and loaded again.
-/

namespace TransactionEngine

open Json.Reader (Takes Record.Fills takes_text takes_unsigned takes_array takes_object takes_null)

lemma HotkeyEntry.exact_toJson (h : HotkeyEntry) : h.toJson.Exact := by
  simp [toJson]

namespace Config

lemma takes_codes (codes : List UInt16) :
    Takes (Json.Reader.sequence (Json.Reader.unsigned UInt16.size "u16"))
      (.array (codes.map fun code => .int code.toNat)) (codes.map UInt16.toNat) := by
  refine takes_array ?_ (by simp)
  rw [List.forall₂_map_left_iff, List.forall₂_map_right_iff, List.forall₂_same]
  exact fun code _ => takes_unsigned code.toNat_lt_size (by decide) "u16"

lemma takes_hotkey (h : HotkeyEntry) : Takes hotkey h.toJson h := by
  have hcodes : (h.codes.map UInt16.toNat).map UInt16.ofNat = h.codes := by
    rw [List.map_map]
    exact List.map_id'' (fun code => UInt16.ofNat_toNat) h.codes
  have hfills : Record.Fills hotkeyRecord {}
      [("name", .string h.name), ("codes", .array (h.codes.map fun code => .int code.toNat))]
      { name := some h.name, codes := some h.codes } := by
    refine .cons rfl rfl ((takes_text "a string" h.name).map fun name =>
      HotkeyDraft.mk (some name) none) ?_
    refine .cons rfl rfl ((takes_codes h.codes).map fun codes =>
      HotkeyDraft.mk (some h.name) (some (codes.map UInt16.ofNat))) ?_
    rw [hcodes]
    exact .nil _
  have hall : ∀ name ∈ hotkeyRecord.required,
      hotkeyRecord.holds { name := some h.name, codes := some h.codes } name = true := by
    simp [hotkeyRecord]
  exact (takes_object hfills hall).map fun d : HotkeyDraft =>
    HotkeyEntry.mk (d.name.getD "") (d.codes.getD [])

lemma takes_stack (capacity : UInt64) :
    Takes (stackRecord.read none) (.object [("initial_capacity", .int capacity.toNat)])
      (some capacity) := by
  have hcapacity := takes_unsigned capacity.toNat_lt_size (Nat.le_refl _) "usize"
  refine takes_object ?_ nofun
  refine .cons rfl rfl (hcapacity.map fun k => some (UInt64.ofNat k)) ?_
  rw [UInt64.ofNat_toNat]
  exact .nil _

lemma takes_socket (socket : Option String) :
    Takes (Json.Reader.optional (Json.Reader.text "path string"))
      ((socket.map Json.string).getD .null) socket := by
  cases socket with
  | none => exact takes_null _
  | some s => exact (takes_text "path string" s).some (.string s) nofun

lemma takes_record (c : Config) : Takes (record.read {}) c.toJson
    { socket := some c.socket, stack := some (some c.initialCapacity), hotkeys := some c.hotkeys } := by
  have hhotkeys : List.Forall₂ (Takes hotkey) (c.hotkeys.map HotkeyEntry.toJson) c.hotkeys := by
    rw [List.forall₂_map_left_iff, List.forall₂_same]
    exact fun h _ => takes_hotkey h
  have hexact : ∀ j ∈ c.hotkeys.map HotkeyEntry.toJson, j.Exact := by
    simp [HotkeyEntry.exact_toJson]
  refine takes_object ?_ nofun
  refine .cons rfl rfl ((takes_socket c.socket).map fun s => Draft.mk (some s) none none) ?_
  refine .cons rfl rfl ((takes_stack c.initialCapacity).map fun k =>
    Draft.mk (some c.socket) (some k) none) ?_
  refine .cons rfl rfl ((takes_array hhotkeys hexact).map fun l =>
    Draft.mk (some c.socket) (some (some c.initialCapacity)) (some l)) ?_
  exact .nil _

lemma parse_text (c : Config) : parse (Text.bytes c.text) = .ok c := by
  have hbytes : Text.bytes c.text = c.toJson.bytes := Json.bytes_ofList _
  rw [parse, hbytes, Json.readWhole_bytes (takes_record c)]
  rfl

lemma load_text (path : String) (c : Config) : load path (.ok c.text) = .ok c := by
  rw [load, parse_text]

/-- A configuration that was loaded, from whatever text, and is written again loads as an equal one,
with the same socket in every directory and the same engine or the same refusal of one. Every
configuration is what loading its written form gives. -/
theorem reload_unchanged :
    (∀ (path content : String) (c : Config), load path (.ok content) = .ok c →
      ∀ path', ∃ d, load path' (.ok c.text) = .ok d ∧ d = c ∧
        (∀ directory, d.socketPath directory = c.socketPath directory) ∧
        Engine.ofConfig d = Engine.ofConfig c) ∧
      ∀ (path : String) (c : Config), load path (.ok c.text) = .ok c := by
  refine ⟨?_, load_text⟩
  intro path content c _ path'
  -- The text that was loaded has no part in this: every configuration is read back.
  refine ⟨c, load_text path' c, rfl, ?_, rfl⟩
  intro directory
  rfl

/-- The stack is absent, the socket is null, the theme is unknown and one combo is a list. -/
theorem reload_unchanged_partial :
    let content := "\x7b\"theme\":[1.5e3,null],\"hotkeys\":" ++
      "[[\"a\\n\",[29,65535]], \x7b\"codes\":[],\"name\":\"\\u00e9\"\x7d],\n\"socket\":null\x7d"
    let c : Config := ⟨none, 16, [⟨"a\n", [29, 65535]⟩, ⟨"é", []⟩]⟩
    load "a.json" (.ok content) = .ok c ∧ content ≠ c.text ∧ load "b.json" (.ok c.text) = .ok c := by
  intro content c
  have hload : load "a.json" (.ok content) = .ok c := by decide +kernel
  obtain ⟨d, hd, rfl, -, -⟩ := reload_unchanged.1 "a.json" content c hload "b.json"
  exact ⟨hload, by decide +kernel, hd⟩

end Config

end TransactionEngine
