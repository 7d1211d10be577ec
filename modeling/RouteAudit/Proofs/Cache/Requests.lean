import Mathlib.Data.List.Dedup
import Mathlib.Data.List.DropRight
import RouteAudit.Proofs.Cache.Counters

/-! # What is asked of a cache

Lookups, resets and renewals are what the counters of a cache are about; all other moves only let
time go on, or write down what is there. A script asks for the same requests in the same order as
the moves that it is (`run_enacts`), so what is said of the moves since the counters were last zero
is said of the requests of the script.

A cache remembers its keys: they are all different, as many as the cache is large, and just those
that were looked up since it was renewed (`keys_perm`).
-/

namespace RouteAudit.Cache

/-- Lookups, resets and renewals. -/
def Move.isRequest : Move → Bool
  | lookup .. | resetStats | renew => true
  | _ => false

/-- Whether the counters stand at zero after a move, whatever they were. -/
def Move.zeroes : Move → Bool
  | resetStats | renew => true
  | _ => false

/-- What a step asks for, in order. -/
def Step.requests : Step → List Move
  | .resolve base pattern | .resolveMatcher base pattern | .resolveWithin base pattern _ =>
    [.lookup base pattern]
  | .warmUp base patterns | .settleLate base patterns _ => patterns.map (.lookup base)
  | .analyze _ base patterns _ =>
    .resetStats :: (patterns.map (.lookup base) ++ patterns.map (.lookup base))
  | .resetStats => [.resetStats]
  | .renew => [.renew]
  | _ => []

/-- The moves that the cache of the last one was there for. -/
def sinceRenewal (ms : List Move) : List Move := ms.rtakeWhile (· ≠ .renew)

/-- The moves since the counters were last set to zero. -/
def sinceReset (ms : List Move) : List Move := ms.rtakeWhile (!·.zeroes)

/-- The moves until the counters were last set to zero. -/
def untilReset (ms : List Move) : List Move := ms.rdropWhile (!·.zeroes)

theorem untilReset_append_sinceReset (ms : List Move) : untilReset ms ++ sinceReset ms = ms :=
  List.rdropWhile_append_rtakeWhile

theorem zeroes_of_mem_sinceReset {m : Move} {ms : List Move} (hm : m ∈ sinceReset ms) :
    m.zeroes = false := by
  simpa using List.mem_rtakeWhile_imp hm

/-- Where a filter leaves all that ends a stretch, it can be applied before or after. -/
theorem filter_rtakeWhile {α : Type} {p q : α → Bool} (hq : ∀ a, ¬ p a → q a) (l : List α) :
    (l.rtakeWhile p).filter q = (l.filter q).rtakeWhile p := by
  induction l using List.reverseRecOn with
  | nil => rfl
  | append_singleton l a ih =>
      rw [List.filter_append]
      by_cases hp : p a
      · rw [List.rtakeWhile_concat_pos p l a hp, List.filter_append, ih]
        by_cases ha : q a
        · rw [List.filter_cons_of_pos ha, List.filter_nil, List.rtakeWhile_concat_pos p _ a hp]
        · rw [List.filter_cons_of_neg ha, List.filter_nil, List.append_nil, List.append_nil]
      · rw [List.rtakeWhile_concat_neg p l a hp, List.filter_cons_of_pos (hq a hp),
          List.filter_nil, List.rtakeWhile_concat_neg p _ a hp]

theorem sinceReset_filter (ms : List Move) :
    (sinceReset ms).filter Move.isRequest = sinceReset (ms.filter Move.isRequest) :=
  filter_rtakeWhile (fun m hm => by cases m <;> simp_all [Move.zeroes, Move.isRequest]) ms

theorem sinceRenewal_filter (ms : List Move) :
    (sinceRenewal ms).filter Move.isRequest = sinceRenewal (ms.filter Move.isRequest) :=
  filter_rtakeWhile (fun m hm => by cases m <;> simp_all [Move.isRequest]) ms

/-- The pairs that are looked up can be read off the requests. -/
theorem filterMap_pair?_filter (ms : List Move) :
    (ms.filter Move.isRequest).filterMap Move.pair? = ms.filterMap Move.pair? := by
  rw [List.filterMap_filter]
  refine List.filterMap_congr fun m _ => ?_
  cases m <;> rfl

namespace Session

section

variable {engine : Engine} {s t u : Session} {asked more : List Move}

/-! ## Requests of a script -/

/-- Some moves with these requests lead from one session to another. -/
def Enacts (engine : Engine) (s : Session) (asked : List Move) (t : Session) : Prop :=
  ∃ ms, (s.moves engine ms).2 = t ∧ ms.filter Move.isRequest = asked

namespace Enacts

theorem refl (s : Session) : Enacts engine s [] s := ⟨[], rfl, rfl⟩

theorem trans (hst : Enacts engine s asked t) (htu : Enacts engine t more u) :
    Enacts engine s (asked ++ more) u := by
  obtain ⟨first, rfl, rfl⟩ := hst
  obtain ⟨second, rfl, rfl⟩ := htu
  exact ⟨first ++ second, by rw [moves_append], List.filter_append ..⟩

theorem of_move (m : Move) : Enacts engine s ([m].filter Move.isRequest) (s.move engine m).2 :=
  ⟨[m], rfl, rfl⟩

/-- What asks for nothing may follow. -/
theorem andThen (hst : Enacts engine s asked t) (htu : Enacts engine t [] u) :
    Enacts engine s asked u := by
  simpa using hst.trans htu

end Enacts

theorem Waits.enacts (hst : Waits engine s t) : Enacts engine s [] t := by
  obtain ⟨ms, hquiet, rfl⟩ := hst
  refine ⟨ms, rfl, List.filter_eq_nil_iff.mpr fun m hm => ?_⟩
  have hquiet := hquiet m hm
  cases m <;> first | exact Bool.false_ne_true | exact hquiet.elim

theorem resolve_enacts (base pattern : String) :
    Enacts engine s [.lookup base pattern] (s.resolve base pattern).2 :=
  .of_move (.lookup base pattern)

theorem warmUp_enacts (base : String) (patterns : List String) (deadline : Option Nat) :
    Enacts engine s (patterns.map (.lookup base)) (s.warmUp engine base patterns deadline).2 := by
  refine Enacts.andThen (t := (s.resolveAll base patterns).2) ?_ (wait_waits _ deadline).enacts
  refine ⟨patterns.map (.lookup base), moves_lookups engine s base patterns, ?_⟩
  simp [List.filter_eq_self, Move.isRequest]

theorem passOver_enacts (base : String) (deadline : Option Nat) (patterns : List String) :
    Enacts engine s (patterns.map (.lookup base)) (passOver engine base deadline patterns s).2 := by
  induction patterns generalizing s with
  | nil => exact .refl s
  | cons pattern patterns ih =>
      have hresolve : Enacts engine s [.lookup base pattern] (s.resolve base pattern).2 :=
        resolve_enacts base pattern
      cases deadline with
      | none => exact (hresolve.andThen (wait_waits _ none).enacts).trans ih
      | some time => exact (hresolve.andThen (wait_waits _ _).enacts).trans ih

theorem analyze_enacts (runId base : String) (patterns : List String) (limitMs : Option Nat) :
    Enacts engine s
      (.resetStats :: (patterns.map (.lookup base) ++ patterns.map (.lookup base)))
      (s.analyze engine runId base patterns limitMs).2 := by
  have hstart : Enacts engine s [.resetStats]
      (s.tell (.analysisStarted patterns.length base)).resetStats :=
    (Enacts.of_move (.tell _)).trans (.of_move .resetStats)
  have hend (t : Session) (event : Event) : Enacts engine t []
      ((t.flushStore engine).tellStats.tell event) :=
    ((Enacts.of_move .flushStore).trans (.of_move (.tell _))).trans (.of_move (.tell event))
  have hpasses (t : Session) (deadline : Option Nat) :
      Enacts engine t (patterns.map (.lookup base) ++ patterns.map (.lookup base))
        (passOver engine base deadline patterns (t.warmUp engine base patterns deadline).2).2 :=
    (warmUp_enacts base patterns deadline).trans (passOver_enacts base deadline patterns)
  exact (hstart.trans (hpasses _ _)).andThen (hend _ _)

theorem settleLate_enacts (base : String) (late : List String) (graceMs : Nat) :
    Enacts engine s (late.map (.lookup base)) (s.settleLate engine base late graceMs).2 := by
  unfold settleLate
  split
  next hempty =>
    obtain rfl := List.isEmpty_iff.mp hempty
    exact .refl s
  next => exact (warmUp_enacts base late _).andThen (.of_move .flushStore)

theorem step_enacts (step : Step) : Enacts engine s step.requests (s.step engine step).2 := by
  cases step with
  | resolve base pattern => exact resolve_enacts base pattern
  | await | sleep => exact (wait_waits _ _).enacts
  | warmUp base patterns => exact warmUp_enacts base patterns none
  | resolveMatcher base pattern | resolveWithin base pattern =>
      exact (resolve_enacts base pattern).andThen (wait_waits _ _).enacts
  | contains | storeKnows => exact .refl s
  | resetStats => exact .of_move .resetStats
  | tellStats => exact .of_move (.tell _)
  | analyze runId base patterns limitMs => exact analyze_enacts runId base patterns limitMs
  | settleLate base late graceMs => exact settleLate_enacts base late graceMs
  | renew => exact .of_move .renew

/-- A script is one of the interleavings of its requests. -/
theorem run_enacts (script : List Step) :
    Enacts engine s (script.flatMap Step.requests) (s.run engine script).2 := by
  induction script generalizing s with
  | nil => exact .refl s
  | cons step steps ih => exact (step_enacts step).trans ih

/-! ## Keys -/

/-- The keys that the cache remembers, in the order in which they were first looked up. -/
def keys (s : Session) : List String :=
  (s.jobs.filter (·.generation == s.generation)).map Job.key

theorem length_keys (s : Session) : s.keys.length = s.size := by
  rw [keys, List.length_map, ← List.countP_eq_length_filter, size]

/-- The cache has one job for a key. -/
theorem keys_nodup {trace : List Sight} (h : Ledger trace s) : s.keys.Nodup := by
  have hslots : ((s.jobs.filter (·.generation == s.generation)).map Job.slot).Nodup :=
    h.distinct.sublist (List.filter_sublist.map _)
  refine List.pairwise_map.mpr ((List.pairwise_map.mp hslots).imp_of_mem ?_)
  intro job other hjob hother hslot hkey
  have hgeneration := (List.mem_filter.mp hjob).2
  have hsame := (List.mem_filter.mp hother).2
  rw [beq_iff_eq] at hgeneration hsame
  exact hslot (by rw [Job.slot, Job.slot, hgeneration, hsame, hkey])

theorem mem_keys_iff {key : String} : key ∈ s.keys ↔ (s.find? key).isSome := by
  simp [keys, find?, List.findIdx?_isSome, and_assoc]

/-- The keys of a cache are those that were looked up, each once. -/
theorem keys_perm {trace : List Sight} {pairs : List (String × String)} (h : Ledger trace s)
    (hrecalls : Recalls pairs s) :
    s.keys.Perm (pairs.map fun pair => cacheKey pair.1 pair.2).dedup := by
  rw [List.perm_ext_iff_of_nodup (keys_nodup h) (List.nodup_dedup _)]
  intro key
  have hfirst := congrArg Option.isSome (hrecalls.first key)
  have hpair : ((s.find? key).bind s.pair?).isSome = (s.find? key).isSome := by
    cases hfind : s.find? key with
    | none => rfl
    | some id => simp [pair?, List.getElem?_eq_getElem (find?_lt hfind)]
  rw [mem_keys_iff, ← hpair, hfirst, List.mem_dedup, firstWith, List.find?_isSome, List.mem_map]
  simp

end

end Session

end RouteAudit.Cache
