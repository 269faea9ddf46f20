import WideColumn.CommandLine.Run
import WideColumn.Proofs.Settings.Loading

/-!
# Loads in the course of events

Files are written and removed, configurations are loaded, and the program runs
and loads what its command line names. A record is made of every load, with the
files that it found and what it answered. What is remembered is read off the
record: it is what the latest load that succeeded gave. As the loads of one path
that follow each other all give what the first of them read, every configuration
that is given was denoted by its path when that first load was made.
-/

namespace WideColumn.CommandLine

/-- What may happen to the files and to what is remembered. -/
inductive Event where
  /-- A file is written. -/
  | write (p : Path) (contents : Bytes)
  /-- A file is removed. -/
  | remove (p : Path)
  /-- A configuration is loaded. -/
  | load (p : Path)
  /-- The program is run. -/
  | run (argv : List String)

namespace Event

/-- The path that is loaded in the event, if one is. A run loads one if it understands its command
line. -/
def source? (tree : FileTree) : Event → Option Path
  | load p => some p
  | run argv => (Invocation.ofArguments argv).toOption.map fun i => i.source tree
  | _ => none

/-- What the event leaves of what it finds. -/
def outcome : Event → World → World
  | write p contents, w => { w with tree := w.tree.write p contents }
  | remove p, w => { w with tree := w.tree.remove p }
  | load p, w => { w with cache := (WideColumn.load w.tree p w.cache).2 }
  | run argv, w => (CommandLine.run argv w).2

end Event

/-- What a load of a path answers in a world. -/
def World.answer (w : World) (p : Path) : Except Error Configuration :=
  (load w.tree p w.cache).1

/-- The path that is loaded in an event, if one is. -/
def World.source? (w : World) (e : Event) : Option Path := e.source? w.tree

/-- A run that understands its command line makes one load, which is all that it does to what is
remembered, and it leaves the files. A run whose load fails leaves everything. -/
theorem world_of_run {argv : List String} {i : Invocation}
    (h : Invocation.ofArguments argv = .ok i) (w : World) :
    (run argv w).2.tree = w.tree ∧ (run argv w).2.cache = (load w.tree (i.source w.tree) w.cache).2 ∧
      ∀ e, w.answer (i.source w.tree) = .error e → (run argv w).2 = w := by
  have hfailed := @cache_of_load_error w.tree (i.source w.tree) w.cache
  simp only [run, h, runInvocation, World.answer]
  cases hload : load w.tree (i.source w.tree) w.cache with
  | mk answer cache =>
    rw [hload] at hfailed
    cases answer with
    | error e =>
      have hcache : cache = w.cache := hfailed rfl
      exact ⟨rfl, rfl, fun _ _ => by rw [hcache]⟩
    | ok c =>
      cases i.request with
      | error e => exact ⟨rfl, rfl, nofun⟩
      | ok r => exact ⟨rfl, rfl, nofun⟩

/-- An event in which a path is loaded leaves the files and does to what is remembered what the
load does. If the load fails it leaves everything. -/
theorem Event.outcome_of_source {e : Event} {p : Path} {w : World} (h : w.source? e = some p) :
    (e.outcome w).tree = w.tree ∧ (e.outcome w).cache = (WideColumn.load w.tree p w.cache).2 ∧
      ∀ cause, w.answer p = .error cause → e.outcome w = w := by
  cases e with
  | write | remove => cases h
  | load p =>
    cases h
    refine ⟨rfl, rfl, fun cause hcause => ?_⟩
    simp only [outcome, cache_of_load_error hcause]
  | run argv =>
    simp only [World.source?, source?] at h
    cases hread : Invocation.ofArguments argv with
    | error stop =>
      rw [hread] at h
      cases h
    | ok i =>
      rw [hread] at h
      cases h
      exact world_of_run hread w

/-- An event in which nothing is loaded leaves what is remembered. -/
theorem Event.cache_outcome {e : Event} {w : World} (h : w.source? e = none) :
    (e.outcome w).cache = w.cache := by
  cases e with
  | write | remove => rfl
  | load p => cases h
  | run argv =>
    simp only [World.source?, source?] at h
    simp only [outcome, CommandLine.run]
    cases hread : Invocation.ofArguments argv with
    | error stop => rfl
    | ok i =>
      rw [hread] at h
      cases h

/-- A load that was made: its path, the files that it found, and its answer. -/
structure LoadRecord where
  /-- What was loaded. -/
  path : Path
  /-- The files at that time. -/
  tree : FileTree
  /-- What was answered. -/
  answer : Except Error Configuration

/-- What the load gave, and for which path; none if it failed. -/
def LoadRecord.loaded? (r : LoadRecord) : Cache := r.answer.toOption.map fun c => (r.path, c)

/-- What the latest load that succeeded gave, and for which path; the latest load comes first. -/
def lastLoaded (loads : List LoadRecord) : Cache := loads.findSome? LoadRecord.loaded?

/-- The loads of the path that have succeeded since another one was last loaded with success; the
latest load comes first. -/
def streak (p : Path) (loads : List LoadRecord) : List LoadRecord :=
  (loads.filter fun r => r.loaded?.isSome).takeWhile fun r => r.path = p

section

variable {p : Path} {tree : FileTree} {c : Configuration} {loads : List LoadRecord}

@[simp] theorem lastLoaded_cons_ok :
    lastLoaded (⟨p, tree, .ok c⟩ :: loads) = some (p, c) := rfl

@[simp] theorem lastLoaded_cons_error {e : Error} :
    lastLoaded (⟨p, tree, .error e⟩ :: loads) = lastLoaded loads := rfl

@[simp] theorem streak_cons_ok :
    streak p (⟨p, tree, .ok c⟩ :: loads) = ⟨p, tree, .ok c⟩ :: streak p loads := by
  simp [streak, LoadRecord.loaded?, Except.toOption]

@[simp] theorem streak_cons_error {e : Error} (p' : Path) :
    streak p (⟨p', tree, .error e⟩ :: loads) = streak p loads := by
  simp [streak, LoadRecord.loaded?, Except.toOption]

/-- The loads of a path do not follow each other up to now if the latest one that succeeded was of
another path, or there was none. -/
theorem streak_eq_nil (h : ∀ c, lastLoaded loads ≠ some (p, c)) : streak p loads = [] := by
  induction loads with
  | nil => rfl
  | cons r loads ih =>
    obtain ⟨p', tree, e | c⟩ := r
    · rw [streak_cons_error]
      exact ih h
    · have hother : p' ≠ p := fun hp => h c (hp ▸ rfl)
      simp [streak, LoadRecord.loaded?, Except.toOption, hother]

end

/-- The world as it is, and the loads that were made in it; the latest load comes first. -/
structure Chronicle where
  /-- The world as it is. -/
  world : World
  /-- The loads that were made. -/
  loads : List LoadRecord

namespace Chronicle

/-- Nothing has been loaded, and nothing is remembered. -/
def start (tree : FileTree) (server : Server) : Chronicle := ⟨⟨tree, none, server⟩, []⟩

/-- One more event; a load that is made in it goes on record. -/
def step (k : Chronicle) (e : Event) : Chronicle where
  world := e.outcome k.world
  loads := ((k.world.source? e).map fun p => ⟨p, k.world.tree, k.world.answer p⟩).toList ++ k.loads

/-- One event after the other. -/
def after (k : Chronicle) (events : List Event) : Chronicle := events.foldl step k

/-- What is remembered is what the latest load that succeeded gave; its path denoted it when the
first of those loads was made that have followed each other since. -/
structure Sound (k : Chronicle) : Prop where
  /-- What is remembered can be read off the record. -/
  cache_eq : k.world.cache = lastLoaded k.loads
  /-- What is remembered was read by a load on record. -/
  denoted : ∀ p c, lastLoaded k.loads = some (p, c) →
    ∃ first, (streak p k.loads).getLast? = some first ∧ p.Denotes first.tree c

variable {k : Chronicle}

/-- A load goes on record with the files that it finds and what it answers. -/
theorem loads_step {e : Event} {p : Path} (h : k.world.source? e = some p) :
    (k.step e).loads = ⟨p, k.world.tree, k.world.answer p⟩ :: k.loads := by
  simp only [step, h]
  rfl

/-- A process starts with a sound cache. -/
theorem sound_start (tree : FileTree) (server : Server) : (start tree server).Sound :=
  ⟨rfl, nofun⟩

/-- No event makes a sound cache unsound. -/
theorem sound_step (h : k.Sound) (e : Event) : (k.step e).Sound := by
  cases hsource : k.world.source? e with
  | none =>
    have hloads : (k.step e).loads = k.loads := by
      simp only [step, hsource]
      rfl
    refine ⟨?_, fun p c => ?_⟩
    · rw [hloads, ← h.cache_eq]
      exact Event.cache_outcome hsource
    · rw [hloads]
      exact h.denoted p c
  | some p =>
    have hloads := loads_step (k := k) hsource
    have hcache : (k.step e).world.cache = (load k.world.tree p k.world.cache).2 :=
      (Event.outcome_of_source hsource).2.1
    obtain ⟨c, hremembered, hload⟩ | ⟨hnew, ⟨c, hdenotes, hload⟩ | ⟨cause, -, hload⟩⟩ :=
      load_cases k.world.tree p k.world.cache
    · -- One more load follows those of the same path, the first of which stays where it is.
      rw [World.answer, hload] at hloads
      rw [hload] at hcache
      obtain ⟨first, hfirst, hdenotes⟩ := h.denoted p c (h.cache_eq.symm.trans hremembered)
      refine ⟨by rw [hcache, hloads, hremembered, lastLoaded_cons_ok], fun p' c' hlast => ?_⟩
      rw [hloads, lastLoaded_cons_ok] at hlast
      cases hlast
      rw [hloads, streak_cons_ok, List.getLast?_cons, hfirst]
      exact ⟨first, rfl, hdenotes⟩
    · -- The load is the first of its path, and has just read the files.
      rw [World.answer, hload] at hloads
      rw [hload] at hcache
      have hnone : streak p k.loads = [] := streak_eq_nil fun c => h.cache_eq ▸ hnew c
      refine ⟨by rw [hcache, hloads, lastLoaded_cons_ok], fun p' c' hlast => ?_⟩
      rw [hloads, lastLoaded_cons_ok] at hlast
      cases hlast
      rw [hloads, streak_cons_ok, hnone]
      exact ⟨_, rfl, hdenotes⟩
    · -- The load has failed, and only stands on the record.
      rw [World.answer, hload] at hloads
      rw [hload] at hcache
      refine ⟨by rw [hcache, hloads, lastLoaded_cons_error, h.cache_eq], fun p' c' hlast => ?_⟩
      rw [hloads, streak_cons_error]
      rw [hloads, lastLoaded_cons_error] at hlast
      exact h.denoted p' c' hlast

/-- The cache is sound after any events. -/
theorem sound_after (h : k.Sound) (events : List Event) : (k.after events).Sound := by
  induction events generalizing k with
  | nil => exact h
  | cons e events ih => exact ih (sound_step h e)

/-- The world as it comes to be depends on the world as it was, and not on what is on record. -/
theorem world_after_congr {k' : Chronicle} (h : k.world = k'.world) (events : List Event) :
    (k.after events).world = (k'.after events).world := by
  induction events generalizing k k' with
  | nil => exact h
  | cons e events ih => exact ih (congrArg e.outcome h)

/-- A load that fails has no consequences. -/
theorem world_after_of_error {e : Event} {p : Path} {cause : Error}
    (hsource : k.world.source? e = some p) (h : k.world.answer p = .error cause) (later : List Event) :
    (k.after (e :: later)).world = (k.after later).world :=
  world_after_congr ((Event.outcome_of_source hsource).2.2 cause h) later

/-- After any course of events a load gives a configuration exactly if the latest load that succeeded
was of the same path and gave it, or was of another path and this one now denotes it. -/
theorem answer_after (tree : FileTree) (server : Server) (events : List Event) (p : Path) :
    let k := (start tree server).after events
    (∀ c, k.world.answer p = .ok c ↔
      lastLoaded k.loads = some (p, c) ∨
        (∀ c', lastLoaded k.loads ≠ some (p, c')) ∧ p.Denotes k.world.tree c) ∧
    (∀ e c, k.world.source? e = some p → k.world.answer p = .ok c →
      ∃ first, (streak p (k.step e).loads).getLast? = some first ∧ p.Denotes first.tree c) ∧
    ∀ e cause, k.world.source? e = some p → k.world.answer p = .error cause →
      ∀ later q, (k.after (e :: later)).world.answer q = (k.after later).world.answer q := by
  intro k
  have hsound : k.Sound := sound_after (sound_start tree server) events
  refine ⟨fun c => ?_, fun e c hsource hok => ?_, fun e cause hsource herror later q => ?_⟩
  · rw [← hsound.cache_eq]
    exact load_eq_ok_iff
  · have hlast : lastLoaded (k.step e).loads = some (p, c) := by
      rw [loads_step hsource, hok, lastLoaded_cons_ok]
    exact (sound_step hsound e).denoted p c hlast
  · rw [world_after_of_error hsource herror]

end Chronicle

end WideColumn.CommandLine
