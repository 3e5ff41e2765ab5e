import Latchkey.Proofs.Json.Records
import Latchkey.Store.Row

/-!
# Columns and rows are read back

A scope, a list of policies and a fingerprint are read from their columns as what was written there,
whatever texts are in them and whatever is missing from them. So rows are read back as well, and a
key lets in from its row whom it let in before.
-/

namespace Latchkey

open Json

/-! ## Forms -/

theorem Place.readsBack : ReadsBack Place.toJson Place.ofJson? where
  isPlain p := by
    simp [toJson, Json.isPlain, haveOnlyPlain, ReadsBack.optionalText.isPlain]
  read_write p := by
    rw [ofJson?, toJson, Record.of?_object (by rfl) (by decide)]
    simp [ofRecord?, Record.omissible, Record.orElse, Record.get?, List.lookup_cons,
      ReadsBack.optionalText.read_write]

theorem Agent.readsBack : ReadsBack Agent.toJson Agent.ofJson? where
  isPlain a := by
    simp [toJson, Json.isPlain, haveOnlyPlain, ReadsBack.optionalText.isPlain]
  read_write a := by
    rw [ofJson?, toJson, Record.of?_object (by rfl) (by decide)]
    simp [Record.required, Record.optional, Record.get?, List.lookup_cons,
      ReadsBack.text.read_write, ReadsBack.optionalText.read_write]

theorem Fingerprint.readsBack : ReadsBack Fingerprint.toJson Fingerprint.ofJson? where
  isPlain f := by
    simp [toJson, Json.isPlain, haveOnlyPlain, Place.readsBack.isPlain, Agent.readsBack.isPlain]
  read_write f := by
    rw [ofJson?, toJson, Record.of?_object (by rfl) (by decide)]
    simp [Record.required, Record.get?, List.lookup_cons, ReadsBack.text.read_write,
      Place.readsBack.read_write, Agent.readsBack.read_write]

theorem TextScope.readsBack : ReadsBack TextScope.toJson TextScope.ofJson? where
  isPlain s := by
    simp [toJson, Json.isPlain, haveOnlyPlain]
  read_write s := by
    rw [ofJson?, toJson, Record.of?_object (by rfl) (by decide)]
    simp [Record.orElse, Record.get?, List.lookup_cons, ReadsBack.bool.read_write]

theorem Scope.readsBack : ReadsBack Scope.toJson Scope.ofJson? where
  isPlain s := by
    simp [toJson, Json.isPlain, haveOnlyPlain, TextScope.readsBack.isPlain]
  read_write s := by
    rw [ofJson?, toJson, Record.of?_object (by rfl) (by decide)]
    simp [Record.orElse, Record.get?, List.lookup_cons, ReadsBack.bool.read_write,
      TextScope.readsBack.read_write]

theorem Policy.readsBack : ReadsBack Policy.toJson Policy.ofJson? where
  isPlain p := by
    simp [toJson, Json.isPlain, haveOnlyPlain]
  read_write p := by
    rw [ofJson?, toJson, Record.of?_object (by rfl) (by decide)]
    simp [Record.required, Record.get?, List.lookup_cons, ReadsBack.text.read_write]

theorem Policy.list_readsBack : ReadsBack Policy.listToJson (asList? Policy.ofJson?) :=
  Policy.readsBack.list

/-! ## Columns and rows -/

/-- What is written in a column is read back from it. -/
theorem readColumn?_toString {α : Type} {write : α → Json} {read : Json → Option α}
    (h : ReadsBack write read) (a : α) : readColumn? read (write a).toString = some a :=
  h.ofString? a

theorem readNullable?_fingerprintColumn (f : Option Fingerprint) :
    readNullable? Fingerprint.ofJson? (fingerprintColumn f) = some f := by
  cases f with
  | none => rfl
  | some f => exact congrArg (Option.map some) (readColumn?_toString Fingerprint.readsBack f)

theorem KeyRow.toKey?_ofKey (k : ApiKey) : (ofKey k).toKey? = some k := by
  have hscope := readColumn?_toString Scope.readsBack k.scope
  have hpolicies := readColumn?_toString Policy.list_readsBack k.policies
  simp only [toKey?, ofKey, hscope, hpolicies]
  rfl

theorem SecurityRow.toEntry?_ofEntry (e : SecurityEntry) :
    SecurityRow.toEntry? (ofEntry e) = some e := by
  simp only [ofEntry, toEntry?, readNullable?_fingerprintColumn]
  rfl

theorem DeviceRow.toDevice?_ofDevice (d : Device) : (ofDevice d).toDevice? = some d := by
  simp only [toDevice?, ofDevice, readNullable?_fingerprintColumn]
  rfl

/-- All that is stored as JSON is read back as it was: scopes, lists of policies and fingerprints,
and with them the rows of keys, of entries about accounts and of devices. Whether a key lets an
address in, and whether two fingerprints are of one origin, is the same after as before. -/
theorem stored_reads_back :
    (∀ s : Scope, readColumn? Scope.ofJson? s.toJson.toString = some s) ∧
    (∀ ps : List Policy,
      readColumn? (asList? Policy.ofJson?) (Policy.listToJson ps).toString = some ps) ∧
    (∀ f : Fingerprint, readColumn? Fingerprint.ofJson? f.toJson.toString = some f) ∧
    (∀ k : ApiKey, (KeyRow.ofKey k).toKey? = some k ∧
      ∀ ip, (KeyRow.ofKey k).toKey?.map (·.permits ip) = some (k.permits ip)) ∧
    (∀ e : SecurityEntry, SecurityRow.toEntry? (SecurityRow.ofEntry e) = some e) ∧
    (∀ d : Device, (DeviceRow.ofDevice d).toDevice? = some d) ∧
    ∀ f g : Fingerprint,
      (do
        let f' ← readColumn? Fingerprint.ofJson? f.toJson.toString
        let g' ← readColumn? Fingerprint.ofJson? g.toJson.toString
        return f'.sameOrigin g') = some (f.sameOrigin g) := by
  have hfingerprint := readColumn?_toString Fingerprint.readsBack
  refine ⟨readColumn?_toString Scope.readsBack, readColumn?_toString Policy.list_readsBack,
    hfingerprint, fun k => ⟨KeyRow.toKey?_ofKey k, fun ip => ?_⟩, SecurityRow.toEntry?_ofEntry,
    DeviceRow.toDevice?_ofDevice, fun f g => ?_⟩
  · rw [KeyRow.toKey?_ofKey, Option.map_some]
  · simp only [hfingerprint]
    rfl

end Latchkey
