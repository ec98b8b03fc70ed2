import DeviceTester.Gui.App

/-!
# The recent connections of the program

Between one start of the program and the next, the list of the recent connections grows by what
the modal adds.
-/
namespace DeviceTester.Gui

open DeviceTester.Connection DeviceTester.Config DeviceTester.Lib

/-! ## Whether the file can be written -/

namespace DeviceManager

variable {json : JsonText} {m m' : DeviceManager}

theorem writable_addRecentConnection (json : JsonText) (type : Bytes) (options : Json)
    (file : RecentsFile) :
    (addRecentConnection json type options file).2.writable = file.writable := by
  unfold addRecentConnection
  split
  · rfl
  · split
    · rfl
    · split <;> rfl

theorem writable_storeRecent (json : JsonText) (options : AnyOptions) (m : DeviceManager) :
    (m.storeRecent json options).2.file.writable = m.file.writable := by
  have hfile := writable_addRecentConnection json options.kType options.toJson m.file
  unfold storeRecent refreshRecents
  generalize addRecentConnection json options.kType options.toJson m.file = r at hfile
  obtain ⟨added, file⟩ := r
  cases added with
  | error e => exact hfile
  | ok b =>
    dsimp only
    split <;> exact hfile

theorem writable_enterConnection (texts : Texts) (json : JsonText) (identifier : Bytes) (n : Nat)
    (options : AnyOptions) (addToRecents : Bool) (m : DeviceManager) :
    (m.enterConnection texts json identifier n options addToRecents).2.file.writable =
      m.file.writable := by
  have hstored := writable_storeRecent json options m
  unfold enterConnection
  cases addToRecents with
  | false => rfl
  | true =>
    rw [if_pos rfl]
    generalize m.storeRecent json options = r at hstored
    obtain ⟨stored, m'⟩ := r
    cases stored <;> exact hstored

theorem writable_add (json : JsonText) (a : Answers) (opts : AnyOptions) (addToRecents : Bool)
    (m : DeviceManager) :
    (m.add json a opts addToRecents).2.file.writable = m.file.writable := by
  obtain ⟨texts, htexts⟩ := add_eq json a opts addToRecents
  rw [htexts]
  by_cases hin : opts.identifier ∈ m.connections_
  · rw [addConnection, if_pos hin]
  · cases configure a opts with
    | threw con what =>
      rw [addConnection, if_neg hin]
      rfl
    | returned con =>
      rw [addConnection_of_returned hin]
      exact writable_enterConnection texts json opts.identifier m.objects.length con.options
        addToRecents (m.withWindow opts.identifier con)

theorem entryIn_congr {file file' : RecentsFile} (h : file.writable = file'.writable)
    (opts : AnyOptions) : entryIn file opts = entryIn file' opts := by
  unfold entryIn
  rw [h]

/-- The list and the file are in order, and the file can be written or cannot, as at the start. -/
structure Recorded (json : JsonText) (file : RecentsFile) (m : DeviceManager) : Prop where
  listed : Listed json m
  writable : m.file.writable = file.writable

theorem Recorded.of_sameRecents {file : RecentsFile} (h : Recorded json file m)
    (hs : SameRecents m m') : Recorded json file m' :=
  ⟨h.listed.of_sameRecents hs, by rw [hs.2, h.writable]⟩

theorem Recorded.add {file : RecentsFile} {a : Answers} {opts : AnyOptions}
    (h : Recorded json file m) (hback : WritesBack json m.file opts) :
    Recorded json file (m.add json a opts true).2 ∧
      (m.add json a opts true).2.recentConnections_ =
        m.recentConnections_ ++ remembered json m (.add a opts true) := by
  have hadd : Listed json (m.add json a opts true).2 ∧
      (m.add json a opts true).2.recentConnections_ =
        m.recentConnections_ ++ remembered json m (.add a opts true) ∧
      RecentsReady json m (.add a opts true) m := listed_add h.listed fun _ => hback
  exact ⟨⟨hadd.1, (writable_add json a opts true m).trans h.writable⟩, hadd.2.1⟩

end DeviceManager

/-! ## The frames -/

theorem Form.identifier_described {form : Form} {opts : AnyOptions}
    (h : form.described = some opts) : opts.identifier = form.name := by
  unfold Form.described at h
  split at h
  · obtain rfl := Option.some.inj h
    rfl
  · obtain rfl := Option.some.inj h
    rfl
  · obtain rfl := Option.some.inj h
    rfl
  · cases h

namespace App

open DeviceManager

variable {json : JsonText} {file : RecentsFile} {s t : App}

/-- What is added writes to the file what can be read back. -/
def WritesReadably (json : JsonText) (file : RecentsFile) (m : DeviceCreate)
    (f : DeviceCreate.ModalFrame) : Prop :=
  ∀ a, f.click = some (.add json a) →
    ∀ opts, (m.form.enter f).described = some opts → WritesBack json file opts

/-- Only the program writes the file, and it can read what it has written. -/
def Kept (json : JsonText) (s : App) (e : Event json) (_ : App) : Prop :=
  match e with
  | .modal f => WritesReadably json s.deviceManager_.file s.deviceCreateModal_ f.modal
  | .changeFile _ => False
  | _ => True

/-- The list grows by the entries of what is added, under names that are not empty. -/
structure Grows (file : RecentsFile) (m m' : DeviceManager) (added : List AnyOptions) : Prop where
  list : m'.recentConnections_ = m.recentConnections_ ++ added.flatMap (entryIn file)
  named : ∀ opts ∈ added, opts.identifier ≠ []

theorem Grows.of_sameRecents {m m' : DeviceManager} (h : SameRecents m m') : Grows file m m' [] :=
  ⟨h.1.trans (List.append_nil _).symm, fun opts hmem => by cases hmem⟩

theorem Grows.trans {m m' m'' : DeviceManager} {first rest : List AnyOptions}
    (h : Grows file m m' first) (h' : Grows file m' m'' rest) :
    Grows file m m'' (first ++ rest) := by
  refine ⟨?_, fun opts hmem => ?_⟩
  · rw [h'.list, h.list, List.flatMap_append, List.append_assoc]
  · rcases List.mem_append.mp hmem with hmem | hmem
    · exact h.named opts hmem
    · exact h'.named opts hmem

/-- A frame of the modal. -/
theorem grows_drawContent {m : DeviceCreate} {f : PopupFrame json}
    (hm : Recorded json file m.deviceManager_)
    (hk : WritesReadably json m.deviceManager_.file m f.modal) :
    Recorded json file (m.drawContent f.modal).deviceManager_ ∧
      Grows file m.deviceManager_ (m.drawContent f.modal).deviceManager_ (addedBy f.modal m) := by
  have hnone (hform : (m.drawContent f.modal).form = m.form.enter f.modal) :
      addedBy f.modal m = [] := by
    rw [addedBy, DeviceCreate.frameAdds_of_form hform, if_neg (by simp)]
  have hsame (hform : (m.drawContent f.modal).form = m.form.enter f.modal)
      (hmanager : (m.drawContent f.modal).deviceManager_ = m.deviceManager_) :
      Recorded json file (m.drawContent f.modal).deviceManager_ ∧
        Grows file m.deviceManager_ (m.drawContent f.modal).deviceManager_ (addedBy f.modal m) := by
    rw [hnone hform, hmanager]
    exact ⟨hm, .of_sameRecents ⟨rfl, rfl⟩⟩
  cases DeviceCreate.submits_frame f.modal m with
  | keeps hform hmanager htests => exact hsame hform hmanager
  | tests rx opts hclick hopts hform hmanager htests => exact hsame hform hmanager
  | adds json' a opts message hclick hname hopts hadded hform hmanager htests =>
    obtain rfl := f.format json' a hclick
    obtain ⟨hrecorded, hgrown⟩ := hm.add (a := a) (hk a hclick opts hopts)
    have hadds : addedBy f.modal m = [opts] := by
      rw [addedBy, if_pos (DeviceCreate.frameAdds_iff.mpr ⟨hname, hform⟩), hopts]
      rfl
    rw [hadds, hmanager]
    refine ⟨hrecorded, ?_, fun opts' hmem => ?_⟩
    · rw [hgrown, remembered, hadded]
      simp [entryIn_congr hm.writable opts]
    · obtain rfl := List.mem_singleton.mp hmem
      rw [Form.identifier_described hopts]
      exact hname
  | fails json' a opts hclick hname hopts hadded hthrown hform hmanager htests =>
    obtain rfl := f.format json' a hclick
    obtain ⟨hrecorded, hgrown⟩ := hm.add (a := a) (hk a hclick opts hopts)
    have hnothing : remembered json' m.deviceManager_ (.add a opts true) = [] :=
      remembered_add fun _ => hadded
    rw [hnone hform, hmanager]
    refine ⟨hrecorded, ?_, fun opts' hmem => by cases hmem⟩
    rw [hgrown, hnothing]
    rfl

theorem grows_drawModal {f : PopupFrame json} (hm : Recorded json file s.deviceManager_)
    (hk : WritesReadably json s.deviceManager_.file s.deviceCreateModal_ f.modal) :
    Recorded json file (s.drawModal f).deviceManager_ ∧
      Grows file s.deviceManager_ (s.drawModal f).deviceManager_ (added s (.modal f)) := by
  unfold added
  dsimp only
  rcases drawModal_cases f s with ⟨hnot, hmodal, -, -⟩ | ⟨hshown, hmodal, -, -⟩
  · rw [hnot, if_neg (by simp)]
    have hmanager : (s.drawModal f).deviceManager_ = s.deviceManager_ := by
      rw [deviceManager_, hmodal]
      rfl
    rw [hmanager]
    exact ⟨hm, .of_sameRecents ⟨rfl, rfl⟩⟩
  · rw [if_pos hshown, deviceManager_, hmodal]
    exact grows_drawContent hm hk

theorem grows_step {e : Event json} (hm : Recorded json file s.deviceManager_) (hk : Kept json s e t)
    (hs : step json s e = some t) :
    Recorded json file t.deviceManager_ ∧
      Grows file s.deviceManager_ t.deviceManager_ (added s e) := by
  have hsame {added' : List AnyOptions} (hadds : added' = [])
      (h : SameRecents s.deviceManager_ t.deviceManager_) :
      Recorded json file t.deviceManager_ ∧
        Grows file s.deviceManager_ t.deviceManager_ added' := by
    rw [hadds]
    exact ⟨hm.of_sameRecents h, .of_sameRecents h⟩
  cases (step_cases hs).2 with
  | menu f u hmenu =>
    refine hsame rfl ?_
    show SameRecents s.deviceManager_ u.deviceManager_
    rw [(showMainMenu_cases hmenu).2.2.1]
    have hopened := sameRecents_drawOpenRecent json f.answers f.recents s.deviceManager_
    have hclosed := closeConnections_sameRecents f.close
      (s.deviceManager_.drawOpenRecent json f.answers f.recents)
    exact ⟨hclosed.1.trans hopened.1, hclosed.2.trans hopened.2⟩
  | modal f => exact grows_drawModal hm hk
  | quiet _ _ hadds hentries hbase => exact hsame hadds hentries.recents
  | changeFile file => exact hk.elim

theorem grows_exec {es : List (Event json)} (hm : Recorded json file s.deviceManager_)
    (hk : Along (step json) (Kept json) s es) (he : exec (step json) s es = some t) :
    Recorded json file t.deviceManager_ ∧
      Grows file s.deviceManager_ t.deviceManager_ (collected (step json) added s es) := by
  induction es generalizing s with
  | nil =>
    obtain rfl := Option.some.inj he
    exact ⟨hm, .of_sameRecents ⟨rfl, rfl⟩⟩
  | cons e es ih =>
    obtain ⟨u, hu, htail⟩ := exec_cons_some he
    obtain ⟨hfirst, hrest⟩ := hk.cons hu
    obtain ⟨hrecorded, hgrows⟩ := grows_step hm hfirst hu
    obtain ⟨hlast, htotal⟩ := ih hrecorded hrest htail
    rw [collected, hu]
    exact ⟨hlast, hgrows.trans htotal⟩

/-- In every run of the program that has read the file, where the file had a place for another
connection (`TakesMore`), only the program writes it, and it can read what it has written: the
list is the one that was read and, after it, an entry for each connection that the modal has
added, in order, each under a name that is not empty. It is what the next start reads. -/
theorem recents_grow_by_added (json : JsonText) (file : RecentsFile)
    (recents : List RecentConnection) (es : List (Event json)) (s : App)
    (hread : recentConnections json file = .ok recents) (htakes : TakesMore json file)
    (hkept : Along (step json) (Kept json) (initial file recents) es)
    (he : exec (step json) (initial file recents) es = some s) :
    s.deviceManager_.recentConnections_ = recents ++
        (collected (step json) added (initial file recents) es).flatMap (entryIn file) ∧
      (∀ opts ∈ collected (step json) added (initial file recents) es,
        opts.identifier ≠ []) ∧
      recentConnections json s.deviceManager_.file =
        .ok s.deviceManager_.recentConnections_ := by
  have hfresh : Recorded json file (initial file recents).deviceManager_ := ⟨⟨hread, htakes⟩, rfl⟩
  obtain ⟨hrecorded, hgrows⟩ := grows_exec hfresh hkept he
  exact ⟨hgrows.list, hgrows.named, hrecorded.listed.read⟩

set_option maxRecDepth 4000 in
theorem entered_recorded :
    ∃ s, exec (step kTwoTexts) (initial ⟨some kEmptyText, true⟩ []) enteredRun = some s ∧
      s.deviceManager_.recentConnections_ = [⟨text "udp", .udp kListener⟩] ∧
      recentConnections kTwoTexts s.deviceManager_.file =
        .ok s.deviceManager_.recentConnections_ := by
  have hkept : Along (step kTwoTexts) (Kept kTwoTexts) (initial ⟨some kEmptyText, true⟩ [])
      enteredRun := by
    refine along_cons_of rfl trivial ?_
    refine along_cons_of rfl (fun a hclick opts hopts => ?_) trivial
    obtain rfl := Option.some.inj hopts
    exact writesBack_kEmptyText
  obtain ⟨hlist, -, hread⟩ := recents_grow_by_added kTwoTexts ⟨some kEmptyText, true⟩ [] enteredRun
    _ rfl takesMore_kEmptyText hkept rfl
  exact ⟨_, rfl, rfl, hread⟩

end App

end DeviceTester.Gui
