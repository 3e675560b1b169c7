import ChipEight.InPlace.Keys
import ChipEight.RunConfig
import Mathlib.Data.List.Forall2
import Mathlib.Data.List.Induction
import Mathlib.Data.List.Nodup
import Mathlib.Data.List.TakeWhile

/-!
# Scripted keys

A script that is played by calls for any frames in any order holds down what its events say: those
due by the latest of the frames, one after another by frame and then by their place in the text. The
configuration hands events over in this order, a call takes those that are due off the front, and
what is due for a frame is due for every later one.
-/
namespace ChipEight.Headless.Script

/-- An event of a text and its place there. -/
abbrev Placed := KeyEvent × Nat

/-- By frame, and within one frame by the place in the text. -/
def Before (a b : Placed) : Prop :=
  a.1.frame < b.1.frame ∨ a.1.frame = b.1.frame ∧ a.2 < b.2

instance (a b : Placed) : Decidable (Before a b) := inferInstanceAs (Decidable (_ ∨ _))

/-- Of the events for `key` up to frame `latest`, the last one by frame and place. -/
structure Decides (given : List KeyEvent) (latest : Nat) (key : Key) (e : Placed) : Prop where
  mem : e ∈ given.zipIdx
  same : e.1.key = key
  due : e.1.frame ≤ latest
  last : ∀ other ∈ given.zipIdx, other.1.key = key → other.1.frame ≤ latest →
    other = e ∨ Before other e

/-- What calls for `frames` note of an event: the first of them that it is due for. -/
def Noted (frames : List Nat) (e : Placed) (noted : Event) : Prop :=
  ∃ frame, frames.find? (due · e.1) = some frame ∧ noted = .key frame e.1.key e.1.pressed

def byFrame (a b : KeyEvent) : Bool := a.frame ≤ b.frame

/-- The events of a text in the order in which they apply. -/
def placed (given : List KeyEvent) : List Placed := given.zipIdx.mergeSort (List.zipIdxLE byFrame)

/-- The events come by frame. -/
def InOrder (events : List KeyEvent) : Prop := events.Pairwise (·.frame ≤ ·.frame)

variable {given events : List KeyEvent} {latest frame : Nat} {frames : List Nat} {key : Key}

section Order

theorem Before.asymm {a b : Placed} (h : Before a b) : ¬ Before b a := by
  intro hback
  rcases h with hlt | ⟨heq, hplace⟩ <;> rcases hback with hlt' | ⟨heq', hplace'⟩ <;> omega

/-- The last of a list in order is the one that all others come before. -/
theorem getLast?_eq_some_iff {placed : List Placed} (h : placed.Pairwise Before) {e : Placed} :
    placed.getLast? = some e ↔ e ∈ placed ∧ ∀ other ∈ placed, other = e ∨ Before other e := by
  have hlast : ∀ {last}, placed.getLast? = some last →
      last ∈ placed ∧ ∀ other ∈ placed, other = last ∨ Before other last := by
    intro last hlast
    obtain ⟨earlier, rfl⟩ := List.getLast?_eq_some_iff.mp hlast
    obtain ⟨-, -, hbefore⟩ := List.pairwise_append.mp h
    refine ⟨by simp, fun other hother => ?_⟩
    rcases List.mem_append.mp hother with hmem | hmem
    · exact .inr (hbefore other hmem last (List.mem_singleton_self last))
    · exact .inl (List.mem_singleton.mp hmem)
  refine ⟨hlast, fun ⟨hmem, hothers⟩ => ?_⟩
  obtain ⟨last, hsome⟩ := Option.isSome_iff_exists.mp
    (List.getLast?_isSome.mpr (List.ne_nil_of_mem hmem))
  obtain ⟨hin, hbefore⟩ := hlast hsome
  rcases hothers last hin with rfl | hle
  · exact hsome
  · rcases hbefore e hmem with rfl | hge
    · exact hsome
    · exact absurd hge hle.asymm

theorem byFrame_trans (a b c : KeyEvent) (hab : byFrame a b) (hbc : byFrame b c) :
    byFrame a c := by
  simp only [byFrame, decide_eq_true_eq] at *
  omega

theorem byFrame_total (a b : KeyEvent) : (byFrame a b || byFrame b a) = true := by
  simp only [byFrame, Bool.or_eq_true, decide_eq_true_eq]
  omega

theorem perm_placed (given : List KeyEvent) : (placed given).Perm given.zipIdx :=
  List.mergeSort_perm _ _

theorem map_fst_placed (given : List KeyEvent) :
    (placed given).map Prod.fst = RunConfig.sortEvents given :=
  List.mergeSort_zipIdx

/-- Sorting by frame leaves the events of one frame as they stand in the text. -/
theorem pairwise_placed (given : List KeyEvent) : (placed given).Pairwise Before := by
  have hsorted := List.pairwise_mergeSort (List.zipIdxLE_trans byFrame_trans)
    (List.zipIdxLE_total byFrame_total) given.zipIdx
  have hplaces : (placed given).Pairwise fun a b => a.2 ≠ b.2 := by
    have hnodup : (given.zipIdx.map Prod.snd).Nodup := by
      rw [List.zipIdx_map_snd]
      exact List.nodup_range'
    exact List.pairwise_map.mp (hnodup.perm ((perm_placed given).map Prod.snd).symm)
  refine (hsorted.and hplaces).imp ?_
  rintro a b ⟨hle, hne⟩
  simp only [List.zipIdxLE, byFrame, decide_eq_true_eq] at hle
  unfold Before
  split at hle
  · split at hle
    · have := of_decide_eq_true hle
      omega
    · omega
  · cases hle

theorem inOrder_sortEvents (given : List KeyEvent) : InOrder (RunConfig.sortEvents given) := by
  rw [← map_fst_placed, InOrder, List.pairwise_map]
  refine (pairwise_placed given).imp ?_
  rintro a b (hlt | ⟨heq, -⟩) <;> omega

end Order

section Calls

/-- Some call comes for the frame of the event or a later one. -/
def reached (frames : List Nat) (e : KeyEvent) : Bool := frames.any (due · e)

/-- What is noted of an event that some call is due for. -/
def note? (frames : List Nat) (e : KeyEvent) : Option Event :=
  (frames.find? (due · e)).map fun frame => .key frame e.key e.pressed

theorem reached_iff (hlatest : frames.max? = some latest) (e : KeyEvent) :
    reached frames e = due latest e := by
  obtain ⟨hmem, hmax⟩ := List.max?_eq_some_iff.mp hlatest
  rw [Bool.eq_iff_iff, reached, List.any_eq_true]
  simp only [due, decide_eq_true_eq]
  constructor
  · rintro ⟨frame, hframe, hle⟩
    exact Nat.le_trans hle (hmax frame hframe)
  · exact fun hle => ⟨latest, hmem, hle⟩

/-- Of events in order, those behind the first that is not due are not due either. -/
theorem not_due_of_mem_dropWhile (h : InOrder events) {e : KeyEvent}
    (he : e ∈ events.dropWhile (due frame)) : due frame e = false := by
  induction events with
  | nil => cases he
  | cons first rest ih =>
    obtain ⟨hfirst, hrest⟩ := List.pairwise_cons.mp h
    rw [List.dropWhile_cons] at he
    split at he
    · exact ih hrest he
    case isFalse hnot =>
      simp only [due, decide_eq_true_eq, decide_eq_false_iff_not] at *
      rcases List.mem_cons.mp he with rfl | hmem
      · exact hnot
      · have := hfirst e hmem
        omega

theorem reached_of_due {e : KeyEvent} (h : due frame e = true) :
    reached (frame :: frames) e = true := by
  rw [reached, List.any_cons, h, Bool.true_or]

theorem reached_of_not_due {e : KeyEvent} (h : due frame e = false) :
    reached (frame :: frames) e = reached frames e := by
  rw [reached, List.any_cons, h, Bool.false_or, reached]

/-- What is reached is what the first call takes off the front, then what is reached behind. -/
theorem filter_reached_cons (h : InOrder events) :
    events.filter (reached (frame :: frames)) =
      events.takeWhile (due frame) ++ (events.dropWhile (due frame)).filter (reached frames) := by
  conv_lhs => rw [← List.takeWhile_append_dropWhile (p := due frame) (l := events)]
  rw [List.filter_append]
  congr 1
  · exact List.filter_eq_self.mpr fun e he => reached_of_due (List.mem_takeWhile_imp he)
  · exact List.filter_congr fun e he => reached_of_not_due (not_due_of_mem_dropWhile h he)

theorem filter_not_reached_cons (h : InOrder events) :
    events.filter (fun e => !reached (frame :: frames) e) =
      (events.dropWhile (due frame)).filter fun e => !reached frames e := by
  conv_lhs => rw [← List.takeWhile_append_dropWhile (p := due frame) (l := events)]
  rw [List.filter_append]
  have hnow :
      (events.takeWhile (due frame)).filter (fun e => !reached (frame :: frames) e) = [] := by
    refine List.filter_eq_nil_iff.mpr fun e he => ?_
    rw [reached_of_due (List.mem_takeWhile_imp he)]
    decide
  rw [hnow, List.nil_append]
  refine List.filter_congr fun e he => ?_
  rw [reached_of_not_due (not_due_of_mem_dropWhile h he)]

theorem filterMap_note?_cons (h : InOrder events) :
    events.filterMap (note? (frame :: frames)) =
      (events.takeWhile (due frame)).map (fun e => .key frame e.key e.pressed) ++
        (events.dropWhile (due frame)).filterMap (note? frames) := by
  conv_lhs => rw [← List.takeWhile_append_dropWhile (p := due frame) (l := events)]
  rw [List.filterMap_append]
  congr 1
  · rw [← List.filterMap_eq_map]
    refine List.filterMap_congr fun e he => ?_
    simp [note?, List.mem_takeWhile_imp he]
  · refine List.filterMap_congr fun e he => ?_
    simp [note?, not_due_of_mem_dropWhile h he]

/-- Calls apply and note the events that they reach, in order, and leave the others. -/
theorem follow_advance (s : Script) (h : InOrder s.pending) (frames : List Nat) :
    follow advance s frames =
      (⟨(s.pending.filter (reached frames)).foldl apply s.keys,
        s.pending.filter fun e => !reached frames e⟩, s.pending.filterMap (note? frames)) := by
  induction frames generalizing s with
  | nil =>
    have hnone : s.pending.filter (reached []) = [] :=
      List.filter_eq_nil_iff.mpr fun _ _ => Bool.false_ne_true
    simp [follow, hnone, reached, note?]
  | cons frame rest ih =>
    have hbehind : InOrder (s.advance frame).1.pending := h.sublist (List.dropWhile_sublist _)
    rw [filter_reached_cons h, filter_not_reached_cons h, filterMap_note?_cons h, List.foldl_append]
    simp only [follow, ih _ hbehind]
    rfl

/-- The events that calls up to frame `latest` reach, with their places. -/
def duePlaced (given : List KeyEvent) (latest : Nat) : List Placed :=
  (placed given).filter (due latest ·.1)

theorem map_fst_duePlaced (hlatest : frames.max? = some latest) (given : List KeyEvent) :
    (duePlaced given latest).map Prod.fst =
      (RunConfig.sortEvents given).filter (reached frames) := by
  rw [← map_fst_placed, List.filter_map, duePlaced]
  congr 1
  exact List.filter_congr fun e _ => (reached_iff hlatest e.1).symm

theorem mem_duePlaced {e : Placed} :
    e ∈ duePlaced given latest ↔ e ∈ given.zipIdx ∧ e.1.frame ≤ latest := by
  rw [duePlaced, List.mem_filter, (perm_placed given).mem_iff, due, decide_eq_true_eq]

theorem pairwise_duePlaced (given : List KeyEvent) (latest : Nat) :
    (duePlaced given latest).Pairwise Before := (pairwise_placed given).filter _

/-- Each of the events is noted once, in their order. -/
theorem forall₂_noted (hlatest : frames.max? = some latest) (given : List KeyEvent) :
    List.Forall₂ (Noted frames) (duePlaced given latest)
      ((RunConfig.sortEvents given).filterMap (note? frames)) := by
  rw [← map_fst_placed, List.filterMap_map, duePlaced]
  induction placed given with
  | nil => exact .nil
  | cons e rest ih =>
    rw [List.filter_cons, List.filterMap_cons, ← reached_iff hlatest, reached, ← List.isSome_find?]
    simp only [Function.comp_apply, note?]
    cases hfind : frames.find? (due · e.1) with
    | none => exact ih
    | some frame => exact .cons ⟨frame, hfind, rfl⟩ ih

end Calls

section Keys

/-- After events one after another, a key is as the last event for it says. -/
theorem contains_foldl_apply (events : List KeyEvent) (keys : KeySet) (key : Key) :
    (events.foldl apply keys).contains key =
      ((events.filter (·.key = key)).getLast?.map (·.pressed)).getD (keys.contains key) := by
  induction events using List.reverseRecOn with
  | nil => rfl
  | append_singleton events e ih =>
    rw [List.foldl_append, List.filter_append]
    simp only [List.foldl_cons, List.foldl_nil, apply, KeySet.contains_set, ih]
    by_cases h : e.key = key
    · simp [h]
    · simp [h, Ne.symm h]

/-- The deciding event is the last for its key of those that are due. -/
theorem decides_iff {e : Placed} :
    Decides given latest key e ↔
      ((duePlaced given latest).filter (·.1.key = key)).getLast? = some e := by
  rw [getLast?_eq_some_iff ((pairwise_duePlaced given latest).filter _)]
  simp only [List.mem_filter, mem_duePlaced, decide_eq_true_eq]
  constructor
  · rintro ⟨hmem, hsame, hdue, hlast⟩
    exact ⟨⟨⟨hmem, hdue⟩, hsame⟩, fun other ⟨⟨hother, hle⟩, hkey⟩ => hlast other hother hkey hle⟩
  · rintro ⟨⟨⟨hmem, hdue⟩, hsame⟩, hlast⟩
    exact ⟨hmem, hsame, hdue, fun other hother hkey hle => hlast other ⟨⟨hother, hle⟩, hkey⟩⟩

theorem contains_duePlaced (given : List KeyEvent) (latest : Nat) (key : Key) :
    (((duePlaced given latest).map Prod.fst).foldl apply .empty).contains key = true ↔
      ∃ e, Decides given latest key e ∧ e.1.pressed = true := by
  rw [contains_foldl_apply, KeySet.contains_empty, List.filter_map, List.getLast?_map]
  simp only [decides_iff, Function.comp_def]
  cases ((duePlaced given latest).filter (·.1.key = key)).getLast? with
  | none => simp
  | some e => simp

end Keys

section Text

theorem parse_of_read {text : String} {config : RunConfig} (h : RunConfig.read text = .ok config) :
    ∃ given, RunConfig.parse text = .ok { config with keys := given } ∧
      config.keys = RunConfig.sortEvents given := by
  rw [RunConfig.read] at h
  cases hparse : RunConfig.parse text with
  | error cause =>
    rw [hparse] at h
    cases h
  | ok parsed =>
    rw [hparse] at h
    cases h
    exact ⟨parsed.keys, rfl, rfl⟩

/-- What calls leave of the events of a text, and what they note. -/
theorem follow_sortEvents (hlatest : frames.max? = some latest) (given : List KeyEvent) :
    follow advance (ofEvents (RunConfig.sortEvents given)) frames =
      (⟨((duePlaced given latest).map Prod.fst).foldl apply .empty,
        (RunConfig.sortEvents given).filter fun e => !due latest e⟩,
        (RunConfig.sortEvents given).filterMap (note? frames)) := by
  have hreached : reached frames = due latest := funext (reached_iff hlatest)
  rw [follow_advance _ (inOrder_sortEvents given), map_fst_duePlaced hlatest, hreached]
  rfl

/-- The events that a configuration text gives decide what is down after calls for any frames: a key
is as the last event for it up to the latest frame says, by frame and then by place in the text. In
this order, each event up to that frame is applied and noted once, by the first call that it is due
for, and no other event is. Other calls with the same latest frame leave the same keys and the same
events to come. A cursor over the events leads to the same keys and notes. -/
theorem keys_follow_events {text : String} {config : RunConfig}
    (h : RunConfig.read text = .ok config) :
    ∃ given, RunConfig.parse text = .ok { config with keys := given } ∧
      ∀ frames latest, frames.max? = some latest →
        let played := follow advance (ofEvents config.keys) frames
        (∀ key, played.1.keypad key = true ↔
          ∃ e, Decides given latest key e ∧ e.1.pressed = true) ∧
        (∃ order : List Placed, order.Perm (given.zipIdx.filter (·.1.frame ≤ latest)) ∧
          order.Pairwise Before ∧ played.1.keys = (order.map Prod.fst).foldl apply .empty ∧
          List.Forall₂ (Noted frames) order played.2) ∧
        (∀ others, others.max? = some latest →
          (follow advance (ofEvents config.keys) others).1 = played.1) ∧
        let moved := follow InPlace.Playback.advance (.ofEvents config.keys) frames
        moved.1.script = played.1 ∧ moved.2 = played.2 := by
  obtain ⟨given, hparse, hkeys⟩ := parse_of_read h
  refine ⟨given, hparse, fun frames latest hlatest => ?_⟩
  have hmoved := (InPlace.Playback.ofEvents config.keys).script_follow frames
  have hplayed := follow_sortEvents hlatest given
  rw [← hkeys] at hplayed
  refine ⟨fun key => ?_, ⟨duePlaced given latest, ?_, pairwise_duePlaced given latest, ?_, ?_⟩,
    fun others hothers => ?_, congrArg Prod.fst hmoved, congrArg Prod.snd hmoved⟩
  · rw [hplayed]
    exact contains_duePlaced given latest key
  · exact (perm_placed given).filter _
  · rw [hplayed]
  · rw [hplayed, hkeys]
    exact forall₂_noted hlatest given
  · rw [hplayed, hkeys, follow_sortEvents hothers given]

/-- The last key goes up and down again in frame 5. That it goes up in frame 2 stands last. -/
def tappedText : String :=
  "keys:\n- \x7bframe: 5, key: 15, pressed: false\x7d\n" ++
    "- \x7bframe: 5, key: 15, pressed: true\x7d\n- \x7bframe: 2, key: 15, pressed: false\x7d\n"

def tapped : List KeyEvent :=
  [⟨5, Fin.last 15, false⟩, ⟨5, Fin.last 15, true⟩, ⟨2, Fin.last 15, false⟩]

theorem decides_tapped : Decides tapped 7 (Fin.last 15) (⟨5, Fin.last 15, true⟩, 1) := by
  refine ⟨by decide, rfl, by decide, ?_⟩
  decide

/-- Calls that skip frames, go back and repeat a frame leave the key down. -/
theorem tapped_key_is_down :
    ∃ config : RunConfig, RunConfig.read tappedText = .ok config ∧
      (follow advance (ofEvents config.keys) [7, 3, 7]).1.keypad (Fin.last 15) = true ∧
      (follow advance (ofEvents config.keys) [0, 7]).1 =
        (follow advance (ofEvents config.keys) [7, 3, 7]).1 := by
  have hparse : (RunConfig.parse tappedText).toOption.map RunConfig.keys = some tapped := by
    decide +kernel
  cases hparsed : RunConfig.parse tappedText with
  | error cause =>
    rw [hparsed] at hparse
    cases hparse
  | ok parsed =>
    have hread : RunConfig.read tappedText = .ok parsed.inOrder := by
      rw [RunConfig.read, hparsed]
      rfl
    obtain ⟨given, hgiven, hplayed⟩ := keys_follow_events hread
    obtain ⟨hkeys, -, hothers, -⟩ := hplayed [7, 3, 7] 7 rfl
    have htapped : given = tapped := by
      rw [hgiven] at hparse
      exact Option.some.inj hparse
    rw [htapped] at hkeys
    have hdown := (hkeys (Fin.last 15)).mpr ⟨(⟨5, Fin.last 15, true⟩, 1), decides_tapped, rfl⟩
    exact ⟨parsed.inOrder, hread, hdown, hothers [0, 7] rfl⟩

end Text

end ChipEight.Headless.Script
