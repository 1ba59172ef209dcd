import AutoItServer.Include.Operation
import Mathlib.Data.List.Basic
import Mathlib.Tactic.Lemma

/-!
Generations of the include cache.

A result is stored only in the generation in which its computation began. So a computation that was
overtaken by an invalidation, whatever that one removed, leaves no trace.

* `generation_run`: the generation counts the invalidations.
* `step_of_refused`: a refused store does nothing.
* `generation_guard` (**the guard**): of any number of computations under way, exactly those store
  their result that no invalidation has overtaken, and the others are as good as never made.
-/

namespace AutoItServer

namespace IncludeCache

variable {c : IncludeCache} {u : Uri} {e : IncludeEntry} {g : Nat}

/-! ### Runs -/

@[simp] lemma run_nil (c : IncludeCache) : c.run [] = c := rfl

@[simp] lemma run_cons (c : IncludeCache) (op : CacheOperation) (ops : List CacheOperation) :
    c.run (op :: ops) = (c.step op).1.run ops := rfl

lemma run_append (c : IncludeCache) (before after : List CacheOperation) :
    c.run (before ++ after) = (c.run before).run after :=
  List.foldl_append

lemma log_append (c : IncludeCache) (before after : List CacheOperation) :
    c.log (before ++ after) = c.log before ++ (c.run before).log after := by
  induction before generalizing c with
  | nil => rfl
  | cons op before ih => rw [List.cons_append, log, ih, log, run_cons, List.cons_append]

lemma length_log (c : IncludeCache) (ops : List CacheOperation) :
    (c.log ops).length = ops.length := by
  induction ops generalizing c with
  | nil => rfl
  | cons op ops ih => rw [log, List.length_cons, ih, List.length_cons]

/-! ### Generations -/

/-- Only an invalidation starts a new generation, whether it removes anything or not. -/
lemma generation_step (c : IncludeCache) (op : CacheOperation) :
    (c.step op).1.generation = c.generation + if op.isInvalidation then 1 else 0 := by
  cases op with
  | store u g e =>
    simp only [step, store, CacheOperation.isInvalidation]
    split <;> rfl
  | _ => rfl

/-- The generation counts the invalidations of a run. -/
lemma generation_run (c : IncludeCache) (ops : List CacheOperation) :
    (c.run ops).generation = c.generation + ops.countP CacheOperation.isInvalidation := by
  induction ops generalizing c with
  | nil => rfl
  | cons op ops ih =>
    rw [run_cons, ih, generation_step, List.countP_cons]
    omega

/-! ### Stores -/

/-- A store succeeds in its own generation only. -/
lemma answer_store_iff (c : IncludeCache) (u : Uri) (g : Nat) (e : IncludeEntry) :
    (c.step (.store u g e)).2 = .stored true ↔ c.generation = g := by
  simp only [step, store]
  split <;> simp_all

/-- A refused store does nothing. -/
lemma step_of_refused (h : (c.step (.store u g e)).2 = .stored false) :
    (c.step (.store u g e)).1 = c := by
  simp only [step, store] at h ⊢
  split at h
  · cases h
  · rw [if_neg ‹_›]

/-- **The guard.** The generation is the number of invalidations. A store that names the generation
in which its computation began succeeds exactly if nothing was invalidated in between. What is seen
after a refused store is what would be seen without it. -/
theorem generation_guard (capacity : Nat) :
    (∀ ops, ((withCapacity capacity).run ops).generation =
      ops.countP CacheOperation.isInvalidation) ∧
    (∀ before between u g e, (((withCapacity capacity).run before).step .begin).2 = .generation g →
      ((((withCapacity capacity).run (before ++ .begin :: between)).step (.store u g e)).2 =
          .stored true ↔
        ∀ op ∈ between, ¬ op.isInvalidation)) ∧
    (∀ before after u g e,
      (((withCapacity capacity).run before).step (.store u g e)).2 = .stored false →
      (withCapacity capacity).run (before ++ .store u g e :: after) =
        (withCapacity capacity).run (before ++ after) ∧
      ((withCapacity capacity).log (before ++ .store u g e :: after)).eraseIdx before.length =
        (withCapacity capacity).log (before ++ after)) := by
  refine ⟨fun ops => ?_, fun before between u g e hbegin => ?_,
    fun before after u g e hrefused => ?_⟩
  · rw [generation_run]
    exact Nat.zero_add _
  · -- a computation changes nothing when it begins
    obtain rfl : ((withCapacity capacity).run before).generation = g := by simpa [step] using hbegin
    rw [answer_store_iff, run_append, run_cons]
    show (((withCapacity capacity).run before).run between).generation = _ ↔ _
    rw [generation_run, Nat.add_eq_left, List.countP_eq_zero]
  · have hstep := step_of_refused hrefused
    refine ⟨by rw [run_append, run_cons, hstep, run_append], ?_⟩
    rw [log_append, log, hstep, List.eraseIdx_append_of_length_le (Nat.le_of_eq (length_log _ _)),
      length_log, Nat.sub_self, List.eraseIdx_cons_zero, ← log_append]

/-- A document in the root directory. -/
def rootUri (name : String) : Uri :=
  ⟨Uri.fileScheme, some [], .segments [name.toList], none, none⟩

/-- An entry that reaches one file. -/
def oneFile (file : String) : IncludeEntry :=
  ⟨⟨[]⟩, [.ofString file], ∅⟩

/-- Two computations begin in generation 1, and the second stores its result and loses it again. -/
def race : List CacheOperation :=
  [.begin, .get (rootUri "a.au3") ⟨[]⟩, .store (rootUri "b.au3") 1 (oneFile "/y.au3"),
    .remove (rootUri "b.au3")]

/-- The first of the two may still store its result. After an invalidation that removes nothing it
may not, and its refused store could as well be left out. -/
theorem generation_guard_race :
    let start := withCapacity 1
    let overtaken := race ++ [.invalidateContaining (.ofString "/z.au3")]
    let result := CacheOperation.store (rootUri "a.au3") 1 (oneFile "/x.au3")
    let after := [.get (rootUri "a.au3") ⟨[]⟩, .begin]
    ((start.run ([.invalidateAll] ++ .begin :: race)).step result).2 = .stored true ∧
    ((start.run ([.invalidateAll] ++ .begin :: overtaken)).step result).2 = .stored false ∧
    (start.log ((.invalidateAll :: .begin :: overtaken) ++ result :: after)).eraseIdx 7 =
      start.log ((.invalidateAll :: .begin :: overtaken) ++ after) := by
  intro start overtaken result after
  obtain ⟨-, hguard, hrefused⟩ := generation_guard 1
  have hfalse : ((start.run ([.invalidateAll] ++ .begin :: overtaken)).step result).2 =
      .stored false := by
    decide +kernel
  refine ⟨?_, hfalse, (hrefused _ after _ _ _ hfalse).2⟩
  exact (hguard [.invalidateAll] race _ 1 _ (by decide +kernel)).mpr (by decide +kernel)

end IncludeCache

end AutoItServer
