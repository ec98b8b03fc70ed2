import DeviceTester.Gui.OpenRecent
import DeviceTester.Gui.Teardown

/-!
# Identifiers

Nothing that is done to a connection changes the identifier that it was made with, and the maps
keep what was made for a connection under that identifier.
-/
namespace DeviceTester.Gui

open DeviceTester.Lib DeviceTester.Connection DeviceTester.Config

namespace AnyConnection

def identifier (c : AnyConnection) : Bytes := c.options.identifier

theorem identifier_disconnect (c : AnyConnection) : c.disconnect.identifier = c.identifier := by
  cases c with
  | serial s => exact congrArg (fun o => o.identifier) (Serial.options_disconnect s)
  | tcp t => exact congrArg (fun o => o.identifier) (Tcp.options_disconnect (t := t))
  | udp u => rfl

theorem serial_identifier_step {s u : Serial} {e : Serial.Event} (h : s.step e = some u) :
    u.options_.identifier = s.options_.identifier := by
  cases hset : e.isSetOptions with
  | false => rw [Serial.options_step hset h]
  | true =>
    cases e with
    | setOptions options =>
      obtain rfl := Option.some.inj h
      rfl
    | _ => cases hset

theorem tcp_identifier_step {t u : Tcp} {e : Tcp.Event} (h : t.step e = some u) :
    u.options_.identifier = t.options_.identifier := by
  cases hset : e.isSetOptions with
  | false => rw [Tcp.options_step hset h]
  | true =>
    cases e with
    | setOptions options =>
      obtain rfl := Option.some.inj h
      rfl
    | _ => cases hset

theorem udp_identifier_step {u v : Udp} {e : Udp.Event} (h : u.step e = some v) :
    v.options_.identifier = u.options_.identifier := by
  cases hset : e.isSetOptions with
  | false => rw [Udp.options_step hset h]
  | true =>
    cases e with
    | setOptions options =>
      obtain rfl := Option.some.inj h
      rfl
    | _ => cases hset

theorem identifier_step {c d : AnyConnection} {e : AnyEvent} (h : c.step e = some d) :
    d.identifier = c.identifier := by
  cases c with
  | serial s =>
    cases e with
    | serial e =>
      obtain ⟨u, hu, rfl⟩ := Option.map_eq_some_iff.mp h
      exact serial_identifier_step hu
    | _ => cases h
  | tcp t =>
    cases e with
    | tcp e =>
      obtain ⟨u, hu, rfl⟩ := Option.map_eq_some_iff.mp h
      exact tcp_identifier_step hu
    | _ => cases h
  | udp u =>
    cases e with
    | udp e =>
      obtain ⟨v, hv, rfl⟩ := Option.map_eq_some_iff.mp h
      exact udp_identifier_step hv
    | _ => cases h

end AnyConnection

namespace Teardown

/-- The `n`-th connection has this identifier. -/
def Refers (m : DeviceManager) (n : Nat) (identifier : Bytes) : Prop :=
  ∃ o, m.objects[n]? = some o ∧ o.connection.identifier = identifier

/-- A map that stores what was made for a connection under its identifier. -/
def KeyedBy (m : DeviceManager) (map : Map Nat) : Prop :=
  ∀ identifier n, map.lookup identifier = some n → Refers m n identifier

structure Keyed (m : DeviceManager) : Prop where
  devices : KeyedBy m m.devices_
  connections : KeyedBy m m.connections_
  windows : KeyedBy m m.windows_

variable {json : JsonText} {m m' : DeviceManager} {s t : State} {e : Event}

theorem keyed_fresh (file : RecentsFile) (recents : List RecentConnection) :
    Keyed (.fresh file recents) where
  devices _ _ h := by cases h
  connections _ _ h := by cases h
  windows _ _ h := by cases h

theorem oneKey_of_keyedBy {map : Map Nat} (h : KeyedBy m map) : OneKey map := by
  intro k k' n hk hk'
  obtain ⟨o, ho, hid⟩ := h k n hk
  obtain ⟨o', ho', hid'⟩ := h k' n hk'
  obtain rfl := Option.some.inj (ho.symm.trans ho')
  exact hid.symm.trans hid'

/-! ## What a step does to a map -/

theorem KeyedBy.of_refers {map : Map Nat} (h : KeyedBy m map)
    (hrefers : ∀ n identifier, Refers m n identifier → Refers m' n identifier) : KeyedBy m' map :=
  fun identifier n hn => hrefers n identifier (h identifier n hn)

theorem KeyedBy.erase {map : Map Nat} (h : KeyedBy m map) (identifier : Bytes) :
    KeyedBy m (map.erase identifier) :=
  fun k n hn => h k n (lookup_erase_eq_some.mp hn).2

theorem KeyedBy.insert {map : Map Nat} (h : KeyedBy m map) {identifier : Bytes} {n : Nat}
    (hn : Refers m n identifier) : KeyedBy m (map.insert identifier n) := by
  intro k n' hk
  rcases lookup_insert_eq_some.mp hk with ⟨rfl, rfl⟩ | ⟨-, hold⟩
  · exact hn
  · exact h k n' hold

theorem Keyed.of_refers (h : Keyed m)
    (hrefers : ∀ n identifier, Refers m n identifier → Refers m' n identifier)
    (hd : m'.devices_ = m.devices_) (hc : m'.connections_ = m.connections_)
    (hw : m'.windows_ = m.windows_) : Keyed m' where
  devices := hd ▸ h.devices.of_refers hrefers
  connections := hc ▸ h.connections.of_refers hrefers
  windows := hw ▸ h.windows.of_refers hrefers

/-- A connection becomes one with the same identifier. -/
theorem refers_modify {n : Nat} {f : Object → Object} {m' : DeviceManager}
    (hobjects : m'.objects = m.objects.modify n f)
    (hf : ∀ o, m.objects[n]? = some o → (f o).connection.identifier = o.connection.identifier)
    (k : Nat) (identifier : Bytes) (h : Refers m k identifier) : Refers m' k identifier := by
  obtain ⟨o, ho, hid⟩ := h
  by_cases hk : n = k
  · subst hk
    refine ⟨f o, ?_, (hf o ho).trans hid⟩
    rw [hobjects, List.getElem?_modify_eq, ho]
    rfl
  · refine ⟨o, ?_, hid⟩
    rw [hobjects, List.getElem?_modify_ne _ _ hk, ho]

theorem refers_append {added : List Object} (hobjects : m'.objects = m.objects ++ added) (k : Nat)
    (identifier : Bytes) (h : Refers m k identifier) : Refers m' k identifier := by
  obtain ⟨o, ho, hid⟩ := h
  refine ⟨o, ?_, hid⟩
  rw [hobjects, List.getElem?_append_left (List.getElem?_eq_some_iff.mp ho).1, ho]

theorem Keyed.disconnect (h : Keyed m) (identifier : Bytes) :
    Keyed (m.disconnectConnection identifier) := by
  unfold DeviceManager.disconnectConnection
  split
  · exact h
  · exact h.of_refers (refers_modify rfl fun o _ => o.connection.identifier_disconnect) rfl rfl rfl

theorem Keyed.object (h : Keyed s.manager) {n : Nat} {e : AnyEvent}
    (hs : s.object n e = some t) : Keyed t.manager := by
  obtain ⟨o, c, ho, hc, rfl⟩ := object_cases hs
  refine h.of_refers (refers_modify rfl fun o' ho' => ?_) rfl rfl rfl
  obtain rfl := Option.some.inj (ho.symm.trans ho')
  exact AnyConnection.identifier_step hc

/-- A new connection, its device and its window. -/
theorem Keyed.withWindow (h : Keyed m) {opts : AnyOptions} {con : AnyConnection}
    (hcon : con.options = opts) :
    Keyed (m.withWindow opts.identifier con) ∧
      Refers (m.withWindow opts.identifier con) m.objects.length opts.identifier := by
  have hold : ∀ k identifier, Refers m k identifier →
      Refers (m.withWindow opts.identifier con) k identifier := refers_append rfl
  have hnew : Refers (m.withWindow opts.identifier con) m.objects.length opts.identifier :=
    ⟨⟨con, m.objects.length⟩, List.getElem?_concat_length, congrArg AnyOptions.identifier hcon⟩
  refine ⟨⟨?_, h.connections.of_refers hold, ?_⟩, hnew⟩
  · exact (h.devices.of_refers hold).insert hnew
  · have hwindows : (m.withWindow opts.identifier con).windows_ =
        if opts.identifier ∈ m.windows_ then m.windows_
        else m.windows_.insert opts.identifier m.objects.length := rfl
    rw [hwindows]
    split
    · exact h.windows.of_refers hold
    · exact (h.windows.of_refers hold).insert hnew

theorem Keyed.withRecents (h : Keyed m) (recents : List RecentConnection) (file : RecentsFile) :
    Keyed { m with recentConnections_ := recents, file := file } :=
  ⟨h.devices, h.connections, h.windows⟩

theorem Keyed.add (h : Keyed m) (json : JsonText) (a : Answers) (opts : AnyOptions)
    (addToRecents : Bool) : Keyed (m.add json a opts addToRecents).2 := by
  have hcases := DeviceManager.add_cases json a opts addToRecents m
  generalize m.add json a opts addToRecents = r at hcases ⊢
  obtain ⟨added, m'⟩ := r
  cases hcases with
  | inUse hin message => exact h
  | failed hin con what message hc =>
    have hold : ∀ k identifier, Refers m k identifier →
        Refers (m.makeDevice opts.identifier con) k identifier := refers_append rfl
    refine ⟨?_, h.connections.of_refers hold, h.windows.of_refers hold⟩
    have herase : (m.makeDevice opts.identifier con).devices_.erase opts.identifier =
      m.devices_.erase opts.identifier := erase_insert
    show KeyedBy (m.makeDevice opts.identifier con)
      ((m.makeDevice opts.identifier con).devices_.erase opts.identifier)
    rw [herase]
    exact (h.devices.of_refers hold).erase opts.identifier
  | threw hin con recents file e hc hadd haccept =>
    exact (h.withWindow (DeviceManager.options_configure hc)).1.withRecents recents file
  | added hin con recents file message hc haccept =>
    obtain ⟨hkeyed, hnew⟩ := h.withWindow (DeviceManager.options_configure hc)
    have hentered : Keyed { m.withWindow opts.identifier con with
        connections_ := m.connections_.insert opts.identifier m.objects.length } :=
      ⟨hkeyed.devices, hkeyed.connections.insert hnew, hkeyed.windows⟩
    exact hentered.withRecents recents file

theorem keyed_step (json : JsonText) :
    Keeps (step json) anyStep fun s => Keyed s.manager := by
  intro s e t h _ hs
  cases e with
  | add a opts addToRecents =>
    have hadd := h.add json a opts addToRecents
    simp only [step, Option.ite_none_right_eq_some] at hs
    obtain ⟨-, hs⟩ := hs
    split at hs
    · cases hs
    · rename_i m hm
      obtain rfl := Option.some.inj hs
      rw [hm] at hadd
      exact hadd
  | call identifier io =>
    simp only [step, Option.ite_none_right_eq_some] at hs
    obtain ⟨n, -, hn⟩ := Option.bind_eq_some_iff.mp hs.2
    exact h.object hn
  | close identifiers =>
    simp only [step, Option.ite_none_right_eq_some, Option.some.injEq] at hs
    obtain ⟨-, rfl⟩ := hs
    exact h
  | proceed =>
    simp only [step, State.proceed] at hs
    split at hs
    · cases hs
    · rename_i identifier _ _ _
      obtain rfl := Option.some.inj hs
      exact ⟨h.devices, h.connections, h.windows.erase identifier⟩
    · rename_i identifier _ _ _
      obtain rfl := Option.some.inj hs
      exact h.disconnect identifier
    · rename_i identifier _ _ _
      obtain rfl := Option.some.inj hs
      exact ⟨h.devices, h.connections.erase identifier, h.windows⟩
    · rename_i identifier _ _ _
      obtain rfl := Option.some.inj hs
      exact ⟨h.devices.erase identifier, h.connections, h.windows⟩
  | io n io =>
    simp only [step, Option.ite_none_right_eq_some] at hs
    exact h.object hs.2
  | tick =>
    obtain rfl := Option.some.inj hs
    exact h
  | changeFile file =>
    obtain rfl := Option.some.inj hs
    exact ⟨h.devices, h.connections, h.windows⟩

/-- In every run from a fresh manager, with failing calls, exceptions and closes in between,
what the maps store under an identifier was made for a connection that has this identifier. So
no device, connection or window is stored under two. -/
theorem entries_keyed (json : JsonText) (file : RecentsFile) (recents : List RecentConnection)
    (es : List Event) (s : State) (he : exec (step json) (start file recents) es = some s) :
    Keyed s.manager ∧ OneKey s.manager.devices_ ∧ OneKey s.manager.connections_ ∧
      OneKey s.manager.windows_ := by
  have hs : Keyed s.manager :=
    (keyed_step json).exec (keyed_fresh file recents) (along_anyStep _ _) he
  exact ⟨hs, oneKey_of_keyedBy hs.devices, oneKey_of_keyedBy hs.connections,
    oneKey_of_keyedBy hs.windows⟩

/-- A connection whose settings are applied under another identifier. -/
def renamedRun : List Event :=
  [.add ⟨[], false, fun _ _ => .ok [], ⟨none, none⟩, .ok⟩
      (.udp (.withIdentifier (text "a"))) false,
    .call (text "a") (.udp (.setOptions (.withIdentifier (text "b"))))]

theorem renamed_stays_keyed :
    ∃ s, exec (step noJson) (start ⟨none, true⟩ []) renamedRun = some s ∧
      Refers s.manager 0 (text "a") := by
  obtain ⟨hkeyed, -⟩ := entries_keyed noJson ⟨none, true⟩ [] renamedRun _ rfl
  exact ⟨_, rfl, hkeyed.windows (text "a") 0 rfl⟩

end Teardown

end DeviceTester.Gui
