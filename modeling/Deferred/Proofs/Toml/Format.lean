import Deferred.Proofs.Toml.Settings

set_option autoImplicit false

namespace Deferred

namespace Toml

def Setting.data (s : Setting) : String × Data := (s.key, s.item.data)

theorem dataOfEntries_settings (ss : List Setting) :
    dataOfEntries (ss.map Setting.entry) = ss.map Setting.data := by
  induction ss with
  | nil => rfl
  | cons s ss ih =>
    rw [List.map_cons, List.map_cons, ← ih]
    rfl

theorem read_tableDocument {name : String} (hname : isBareKey name = true) {ss : List Setting}
    (hnodup : (ss.map Setting.key).Nodup) :
    read (tableDocument name ss) = .ok (.table [(name, .table (ss.map Setting.data))]) := by
  rw [read, ofText?_tableDocument hname hnodup]
  simp only [dataOfEntries, Item.data, dataOfEntries_settings]

/-- The line of a simple setting is read as that setting. -/
theorem exists_setting {e : String × Data} (hkey : isBareKey e.1 = true)
    (hsimple : e.2.isSimple = true) (hrange : e.2.inRange = true) :
    ∃ s : Setting, s.line = .setting e.1 (scalarText e.2) ∧ s.data = e := by
  obtain ⟨key, d⟩ := e
  cases d with
  | integer n => exact ⟨.number key hkey n (of_decide_eq_true hrange), rfl, rfl⟩
  | boolean b => exact ⟨.truth key hkey b, rfl, rfl⟩
  | _ => cases hsimple

theorem exists_settings {es : List (String × Data)} (hkey : ∀ e ∈ es, isBareKey e.1 = true)
    (hsimple : ∀ e ∈ es, e.2.isSimple = true) (hrange : ∀ e ∈ es, e.2.inRange = true) :
    ∃ ss : List Setting, ss.map Setting.line = es.map (fun e => .setting e.1 (scalarText e.2)) ∧
      ss.map Setting.data = es := by
  induction es with
  | nil => exact ⟨[], rfl, rfl⟩
  | cons e es ih =>
    rw [List.forall_mem_cons] at hkey hsimple hrange
    obtain ⟨s, hline, hdata⟩ := exists_setting hkey.1 hsimple.1 hrange.1
    obtain ⟨ss, hlines, hdatas⟩ := ih hkey.2 hsimple.2 hrange.2
    exact ⟨s :: ss, by rw [List.map_cons, hline, hlines, List.map_cons],
      by rw [List.map_cons, hdata, hdatas]⟩

variable {t : SettingsTable}

theorem isOk_write (t : SettingsTable) :
    (write t.data).isOk = t.settings.all fun s => s.2.inRange := by
  have hall : (t.settings.all fun s => s.2.isSimple && s.2.inRange) =
      t.settings.all fun s => s.2.inRange := by
    rw [Bool.eq_iff_iff, List.all_eq_true, List.all_eq_true]
    refine forall₂_congr fun s hs => ?_
    rw [t.isSimple_of_mem s hs, Bool.true_and]
  rw [SettingsTable.data, write, hall]
  split
  case isTrue h => exact h.symm
  case isFalse h => exact (Bool.not_eq_true _ ▸ h).symm

theorem exists_tableDocument {text : String} (h : write t.data = .ok text) :
    ∃ ss : List Setting, text = tableDocument t.name ss ∧ ss.map Setting.data = t.settings := by
  rw [SettingsTable.data, write] at h
  split at h
  case isTrue hall =>
    simp only [List.all_eq_true, Bool.and_eq_true] at hall
    obtain ⟨ss, hlines, hdata⟩ := exists_settings t.isBareKey_of_mem t.isSimple_of_mem
      fun s hs => (hall s hs).2
    refine ⟨ss, ?_, hdata⟩
    rw [tableDocument, hlines]
    exact (Except.ok.inj h).symm
  case isFalse => cases h

theorem nodup_keys {ss : List Setting} (h : ss.map Setting.data = t.settings) :
    (ss.map Setting.key).Nodup := by
  have hkeys : ss.map Setting.key = t.settings.map Prod.fst := by
    rw [← h, List.map_map]
    rfl
  rw [hkeys]
  exact t.nodup

theorem read_of_write {text : String} (h : write t.data = .ok text) : read text = .ok t.data := by
  obtain ⟨ss, rfl, hdata⟩ := exists_tableDocument h
  rw [read_tableDocument t.isBareKey_name (nodup_keys hdata), hdata, SettingsTable.data]

theorem read_withoutKeys {text : String} (h : write t.data = .ok text) (keys : List String) :
    read (withoutKeys keys text) = .ok (t.without keys).data := by
  obtain ⟨ss, rfl, hdata⟩ := exists_tableDocument h
  have hkept : (ss.filter fun s => s.key ∉ keys).map Setting.data =
      (t.without keys).settings := by
    change _ = t.settings.filter fun s => s.1 ∉ keys
    rw [← hdata, List.filter_map]
    rfl
  rw [withoutKeys_tableDocument t.isBareKey_name,
    read_tableDocument t.isBareKey_name (nodup_keys hkept), hkept]
  rfl

theorem read_withoutTable {text : String} (h : write t.data = .ok text) :
    read (withoutTable t.name text) = .ok (.table []) := by
  obtain ⟨ss, rfl, -⟩ := exists_tableDocument h
  rw [withoutTable_tableDocument t.isBareKey_name]
  rfl

theorem decodeSize_toNat (n : UInt64) : decodeSize (.integer n.toNat) = .ok n := by
  simp [decodeSize]

end Toml

theorem Format.read_toml : Format.toml.read = Toml.read := rfl

theorem Format.lawful_toml : Format.toml.Lawful where
  isOk_write := Toml.isOk_write
  read_of_write _ _ := Toml.read_of_write
  encode_size _ := rfl
  decode_size := Toml.decodeSize_toNat
  encode_flag _ := rfl
  decode_flag _ := rfl
  encode_record _ _ := rfl
  decode_record _ _ _ _ h := h

/-- Deletes the lines of keys, or those from a header to the next one. -/
def Deletion.ofLines : Deletion := ⟨Toml.withoutKeys, Toml.withoutTable⟩

theorem Deletion.lawful_ofLines : Deletion.ofLines.Lawful .toml where
  read_ofKeys t keys text h := by
    -- Once it goes by its own name, the reader is compared and not run.
    rw [Format.read_toml]
    exact Toml.read_withoutKeys h keys
  read_ofTable t text h := by
    rw [Format.read_toml]
    exact Toml.read_withoutTable h

end Deferred
