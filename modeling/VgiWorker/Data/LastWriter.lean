import Mathlib.Data.List.Induction
import Mathlib.Data.List.Nodup
import Mathlib.Order.Lattice
import Mathlib.Order.Defs.LinearOrder
import Mathlib.Tactic.Common

/-!
# Last-writer-wins registers

A map of registers, each written under a revision: a write wins when its
revision is greater than the current one, so the first of several writes at one
revision stays. Writes come in documents, and a log of documents may be
compacted to the ones that carry a current revision.
-/

set_option autoImplicit false

namespace VgiWorker.LastWriter

variable {Id Revision Content : Type} [DecidableEq Id] [LinearOrder Revision]

structure Write (Id Revision Content : Type) where
  id : Id
  revision : Revision
  content : Content

abbrev Register (Revision Content : Type) := Option (Revision × Content)

abbrev Registers (Id Revision Content : Type) := Id → Register Revision Content

/-- Whether a write at `revision` loses to what the register holds. -/
def Stale (current : Register Revision Content) (revision : Revision) : Prop :=
  ∃ held, current = some held ∧ revision ≤ held.1

instance (current : Register Revision Content) (revision : Revision) :
    Decidable (Stale current revision) :=
  match current with
  | none => isFalse (by rintro ⟨held, found, _⟩; cases found)
  | some held =>
      decidable_of_iff (revision ≤ held.1)
        ⟨fun bound => ⟨held, rfl, bound⟩, fun ⟨_, found, bound⟩ => by cases found; exact bound⟩

@[simp] theorem stale_none (revision : Revision) :
    ¬Stale (none : Register Revision Content) revision := by
  rintro ⟨held, found, _⟩
  cases found

@[simp] theorem stale_some (held : Revision × Content) (revision : Revision) :
    Stale (some held) revision ↔ revision ≤ held.1 := by
  constructor
  · rintro ⟨other, found, bound⟩
    cases found
    exact bound
  · exact fun bound => ⟨held, rfl, bound⟩

def write (registers : Registers Id Revision Content) (update : Write Id Revision Content) :
    Registers Id Revision Content :=
  if Stale (registers update.id) update.revision then registers
  else Function.update registers update.id (some (update.revision, update.content))

def writeAll (registers : Registers Id Revision Content)
    (updates : List (Write Id Revision Content)) : Registers Id Revision Content :=
  updates.foldl write registers

@[simp] theorem writeAll_nil (registers : Registers Id Revision Content) :
    writeAll registers [] = registers := rfl

@[simp] theorem writeAll_cons (registers : Registers Id Revision Content)
    (update : Write Id Revision Content) (rest : List (Write Id Revision Content)) :
    writeAll registers (update :: rest) = writeAll (write registers update) rest := rfl

theorem writeAll_append (registers : Registers Id Revision Content)
    (first second : List (Write Id Revision Content)) :
    writeAll registers (first ++ second) = writeAll (writeAll registers first) second :=
  List.foldl_append

theorem write_of_stale (registers : Registers Id Revision Content)
    (update : Write Id Revision Content) (stale : Stale (registers update.id) update.revision) :
    write registers update = registers :=
  if_pos stale

theorem write_apply_ne (registers : Registers Id Revision Content)
    (update : Write Id Revision Content) (id : Id) (different : update.id ≠ id) :
    write registers update id = registers id := by
  unfold write
  split
  · rfl
  · exact Function.update_of_ne (Ne.symm different) _ _

theorem write_apply_fresh (registers : Registers Id Revision Content)
    (update : Write Id Revision Content)
    (fresh : ¬Stale (registers update.id) update.revision) :
    write registers update update.id = some (update.revision, update.content) := by
  simp [write, fresh]

/-! ## The greatest revision wins -/

/-- Nothing `updates` holds for `id` is above `revision`. -/
def AtMost (id : Id) (revision : Revision) (updates : List (Write Id Revision Content)) : Prop :=
  ∀ update ∈ updates, update.id = id → update.revision ≤ revision

/-- Everything `updates` holds for `id` is below `revision`. -/
def Below (id : Id) (revision : Revision) (updates : List (Write Id Revision Content)) : Prop :=
  ∀ update ∈ updates, update.id = id → update.revision < revision

theorem writeAll_held (registers : Registers Id Revision Content)
    (updates : List (Write Id Revision Content)) (id : Id) (held : Revision × Content)
    (current : registers id = some held) (bound : AtMost id held.1 updates) :
    writeAll registers updates id = some held := by
  induction updates generalizing registers with
  | nil => exact current
  | cons update rest ih =>
      have later : AtMost id held.1 rest := fun other member =>
        bound other (List.mem_cons_of_mem _ member)
      rw [writeAll_cons]
      by_cases same : update.id = id
      · have stale : Stale (registers update.id) update.revision := by
          rw [same, current, stale_some]
          exact bound update List.mem_cons_self same
        rw [write_of_stale registers update stale]
        exact ih registers current later
      · exact ih (write registers update)
          ((write_apply_ne registers update id same).trans current) later

private theorem writeAll_not_stale (registers : Registers Id Revision Content)
    (updates : List (Write Id Revision Content)) (id : Id) (revision : Revision)
    (fresh : ¬Stale (registers id) revision) (below : Below id revision updates) :
    ¬Stale (writeAll registers updates id) revision := by
  induction updates generalizing registers with
  | nil => exact fresh
  | cons update rest ih =>
      refine ih (write registers update) ?_ fun other member =>
        below other (List.mem_cons_of_mem _ member)
      by_cases same : update.id = id
      · by_cases stale : Stale (registers update.id) update.revision
        · rwa [write_of_stale registers update stale]
        · have won := write_apply_fresh registers update stale
          rw [same] at won
          rw [won, stale_some, not_le]
          exact below update List.mem_cons_self same
      · rwa [write_apply_ne registers update id same]

/-- A write above the initial revision that nothing before reaches and nothing after
exceeds is what the register ends up holding. -/
theorem writeAll_winner (registers : Registers Id Revision Content)
    (before after : List (Write Id Revision Content)) (update : Write Id Revision Content)
    (fresh : ¬Stale (registers update.id) update.revision)
    (below : Below update.id update.revision before)
    (bound : AtMost update.id update.revision after) :
    writeAll registers (before ++ update :: after) update.id =
      some (update.revision, update.content) := by
  rw [writeAll_append, writeAll_cons]
  apply writeAll_held _ _ _ (update.revision, update.content) _ bound
  exact write_apply_fresh _ update
    (writeAll_not_stale registers before update.id update.revision fresh below)

/-- A register that no write exceeds keeps its value, absent ones included. -/
theorem writeAll_unwritten (registers : Registers Id Revision Content)
    (updates : List (Write Id Revision Content)) (id : Id)
    (stale : ∀ update ∈ updates, update.id = id → Stale (registers id) update.revision) :
    writeAll registers updates id = registers id := by
  induction updates generalizing registers with
  | nil => rfl
  | cons update rest ih =>
      have first : write registers update id = registers id := by
        by_cases same : update.id = id
        · rw [write_of_stale registers update (by
            rw [same]
            exact stale update List.mem_cons_self same)]
        · exact write_apply_ne registers update id same
      rw [writeAll_cons, ih (write registers update), first]
      intro other member sameId
      rw [first]
      exact stale other (List.mem_cons_of_mem _ member) sameId

/-- Every register either keeps its initial value, which no write exceeds, or holds
the first write of the greatest revision. -/
theorem writeAll_cases (registers : Registers Id Revision Content)
    (updates : List (Write Id Revision Content)) (id : Id) :
    (writeAll registers updates id = registers id ∧
      ∀ update ∈ updates, update.id = id → Stale (registers id) update.revision) ∨
    ∃ before update after, updates = before ++ update :: after ∧ update.id = id ∧
      ¬Stale (registers id) update.revision ∧ Below id update.revision before ∧
      AtMost id update.revision after ∧
      writeAll registers updates id = some (update.revision, update.content) := by
  induction updates using List.reverseRecOn with
  | nil => exact Or.inl ⟨rfl, fun _ member => absurd member List.not_mem_nil⟩
  | append_singleton updates last ih =>
      have step : writeAll registers (updates ++ [last]) =
          write (writeAll registers updates) last := by
        rw [writeAll_append, writeAll_cons, writeAll_nil]
      by_cases same : last.id = id
      · by_cases stale : Stale (writeAll registers updates last.id) last.revision
        · have kept : writeAll registers (updates ++ [last]) = writeAll registers updates := by
            rw [step, write_of_stale _ _ stale]
          rw [kept]
          rcases ih with ⟨unchanged, allStale⟩ | ⟨before, winner, after, split, winnerId, fresh,
              below, bound, won⟩
          · refine Or.inl ⟨unchanged, fun update member updateId => ?_⟩
            rcases List.mem_append.mp member with early | final
            · exact allStale update early updateId
            · rw [List.mem_singleton.mp final]
              rwa [same, unchanged] at stale
          · refine Or.inr ⟨before, winner, after ++ [last], by simp [split], winnerId, fresh, below,
              ?_, won⟩
            intro update member updateId
            rcases List.mem_append.mp member with early | final
            · exact bound update early updateId
            · rw [List.mem_singleton.mp final]
              rwa [same, won, stale_some] at stale
        · refine Or.inr ⟨updates, last, [], rfl, same, ?_, ?_, ?_, ?_⟩
          · rcases ih with ⟨unchanged, _⟩ | ⟨before, winner, after, split, winnerId, fresh, below,
                bound, won⟩
            · rwa [same, unchanged] at stale
            · rw [same, won, stale_some, not_le] at stale
              rintro ⟨held, found, low⟩
              exact fresh ⟨held, found, le_of_lt (lt_of_lt_of_le stale low)⟩
          · intro update member updateId
            rcases ih with ⟨unchanged, allStale⟩ | ⟨before, winner, after, split, winnerId, fresh,
                below, bound, won⟩
            · obtain ⟨held, found, low⟩ := allStale update member updateId
              rw [same, unchanged, found, stale_some, not_le] at stale
              exact lt_of_le_of_lt low stale
            · rw [same, won, stale_some, not_le] at stale
              rw [split] at member
              rcases List.mem_append.mp member with early | rest
              · exact lt_trans (below update early updateId) stale
              · rcases List.mem_cons.mp rest with here | late
                · rw [here]
                  exact stale
                · exact lt_of_le_of_lt (bound update late updateId) stale
          · exact fun _ member => absurd member List.not_mem_nil
          · rw [step, ← same]
            exact write_apply_fresh _ last stale
      · have kept : writeAll registers (updates ++ [last]) id = writeAll registers updates id := by
          rw [step, write_apply_ne _ _ _ same]
        rw [kept]
        rcases ih with ⟨unchanged, allStale⟩ | ⟨before, winner, after, split, winnerId, fresh,
            below, bound, won⟩
        · refine Or.inl ⟨unchanged, fun update member updateId => ?_⟩
          rcases List.mem_append.mp member with early | final
          · exact allStale update early updateId
          · rw [List.mem_singleton.mp final] at updateId
            exact absurd updateId same
        · refine Or.inr ⟨before, winner, after ++ [last], by simp [split], winnerId, fresh, below,
            ?_, won⟩
          intro update member updateId
          rcases List.mem_append.mp member with early | final
          · exact bound update early updateId
          · rw [List.mem_singleton.mp final] at updateId
            exact absurd updateId same

theorem writeAll_isSome (registers : Registers Id Revision Content)
    (updates : List (Write Id Revision Content)) (id : Id) :
    (writeAll registers updates id).isSome ↔
      (registers id).isSome ∨ ∃ update ∈ updates, update.id = id := by
  rcases writeAll_cases registers updates id with ⟨unchanged, allStale⟩ |
      ⟨before, winner, after, split, winnerId, _, _, _, won⟩
  · rw [unchanged]
    constructor
    · exact Or.inl
    · rintro (isSome | ⟨update, member, updateId⟩)
      · exact isSome
      · obtain ⟨held, found, _⟩ := allStale update member updateId
        rw [found]
        rfl
  · rw [won]
    refine ⟨fun _ => Or.inr ⟨winner, ?_, winnerId⟩, fun _ => rfl⟩
    rw [split]
    exact List.mem_append_right _ List.mem_cons_self

/-- Within a document of distinct ids, leaving out the writes that are stale at its start
changes nothing. -/
theorem writeAll_filter_fresh (registers : Registers Id Revision Content)
    (updates : List (Write Id Revision Content)) (nodup : (updates.map (·.id)).Nodup) :
    writeAll registers
        (updates.filter fun update => !decide (Stale (registers update.id) update.revision)) =
      writeAll registers updates := by
  induction updates generalizing registers with
  | nil => rfl
  | cons update rest ih =>
      rw [List.map_cons, List.nodup_cons] at nodup
      have sameFilter :
          rest.filter (fun other => !decide (Stale (registers other.id) other.revision)) =
            rest.filter fun other =>
              !decide (Stale (write registers update other.id) other.revision) := by
        apply List.filter_congr
        intro other member
        have different : update.id ≠ other.id := fun same =>
          nodup.1 (same ▸ List.mem_map_of_mem (f := fun update : Write Id Revision Content =>
            update.id) member)
        rw [write_apply_ne registers update other.id different]
      by_cases stale : Stale (registers update.id) update.revision
      · rw [List.filter_cons_of_neg (by simp [stale]), writeAll_cons,
          write_of_stale registers update stale, ih registers nodup.2]
      · rw [List.filter_cons_of_pos (by simp [stale]), writeAll_cons, writeAll_cons, sameFilter,
          ih (write registers update) nodup.2]

/-! ## Changing what a register holds -/

section MapContents

variable {Other : Type} (change : Content → Other)

def Write.mapContent (update : Write Id Revision Content) : Write Id Revision Other :=
  ⟨update.id, update.revision, change update.content⟩

def mapContents (registers : Registers Id Revision Content) : Registers Id Revision Other :=
  fun id => (registers id).map fun held => (held.1, change held.2)

omit [DecidableEq Id] in
theorem stale_mapContents (registers : Registers Id Revision Content) (id : Id)
    (revision : Revision) :
    Stale (mapContents change registers id) revision ↔ Stale (registers id) revision := by
  unfold mapContents
  cases registers id with
  | none => simp
  | some held => simp

theorem write_mapContents (registers : Registers Id Revision Content)
    (update : Write Id Revision Content) :
    write (mapContents change registers) (update.mapContent change) =
      mapContents change (write registers update) := by
  have agree := stale_mapContents change registers update.id update.revision
  by_cases stale : Stale (registers update.id) update.revision
  · rw [write_of_stale registers update stale]
    exact write_of_stale _ _ (agree.mpr stale)
  · funext id
    by_cases same : update.id = id
    · subst same
      have written := write_apply_fresh (mapContents change registers) (update.mapContent change)
        fun isStale => stale (agree.mp isStale)
      refine written.trans ?_
      unfold mapContents
      rw [write_apply_fresh registers update stale]
      rfl
    · refine (write_apply_ne _ (update.mapContent change) id same).trans ?_
      unfold mapContents
      rw [write_apply_ne registers update id same]

theorem writeAll_mapContents (registers : Registers Id Revision Content)
    (updates : List (Write Id Revision Content)) :
    writeAll (mapContents change registers) (updates.map (Write.mapContent change)) =
      mapContents change (writeAll registers updates) := by
  induction updates generalizing registers with
  | nil => rfl
  | cons update rest ih =>
      rw [List.map_cons, writeAll_cons, writeAll_cons, write_mapContents, ih]

omit [DecidableEq Id] [LinearOrder Revision] in
theorem mapContents_injective (injective : Function.Injective change)
    (first second : Registers Id Revision Content) (id : Id)
    (same : mapContents change first id = mapContents change second id) :
    first id = second id := by
  refine Option.map_injective ?_ same
  rintro ⟨revision, content⟩ ⟨revision', content'⟩ equal
  injection equal with sameRevision sameContent
  exact Prod.ext sameRevision (injective sameContent)

end MapContents

/-! ## Order and repetition do not matter -/

/-- Equal ids and revisions carry equal contents. -/
def Consistent (updates : List (Write Id Revision Content)) : Prop :=
  ∀ first ∈ updates, ∀ second ∈ updates, first.id = second.id →
    first.revision = second.revision → first.content = second.content

omit [DecidableEq Id] [LinearOrder Revision] in
theorem consistent_of_nodup (updates : List (Write Id Revision Content))
    (nodup : (updates.map fun update => (update.id, update.revision)).Nodup) :
    Consistent updates := by
  intro first firstMem second secondMem sameId sameRevision
  rw [List.inj_on_of_nodup_map nodup firstMem secondMem (Prod.ext sameId sameRevision)]

/-- A register ends at the greatest revision written above its initial one. -/
theorem writeAll_greatest (registers : Registers Id Revision Content)
    (updates : List (Write Id Revision Content)) (id : Id) :
    (writeAll registers updates id = registers id ∧
      ∀ update ∈ updates, update.id = id → Stale (registers id) update.revision) ∨
    ∃ update ∈ updates, update.id = id ∧ ¬Stale (registers id) update.revision ∧
      AtMost id update.revision updates ∧
      writeAll registers updates id = some (update.revision, update.content) := by
  rcases writeAll_cases registers updates id with unchanged |
      ⟨before, winner, after, split, winnerId, fresh, below, bound, won⟩
  · exact Or.inl unchanged
  · refine Or.inr ⟨winner, ?_, winnerId, fresh, ?_, won⟩
    · rw [split]
      exact List.mem_append_right _ List.mem_cons_self
    · intro update member updateId
      rw [split] at member
      rcases List.mem_append.mp member with early | rest
      · exact le_of_lt (below update early updateId)
      · rcases List.mem_cons.mp rest with here | late
        · rw [here]
        · exact bound update late updateId

/-- Two sequences of the same consistent writes, in any order and any number of times
each, leave the same registers. -/
theorem writeAll_eq_of_mem_iff (registers : Registers Id Revision Content)
    (first second : List (Write Id Revision Content))
    (same : ∀ update, update ∈ first ↔ update ∈ second) (consistent : Consistent first) :
    writeAll registers first = writeAll registers second := by
  funext id
  rcases writeAll_greatest registers first id with ⟨unchanged, allStale⟩ |
      ⟨winner, winnerMem, winnerId, fresh, bound, won⟩
  · rw [unchanged, writeAll_unwritten registers second id]
    exact fun update member => allStale update ((same update).mpr member)
  · rcases writeAll_greatest registers second id with ⟨_, allStale⟩ |
        ⟨winner', winnerMem', winnerId', _, bound', won'⟩
    · exact absurd (allStale winner ((same winner).mp winnerMem) winnerId) fresh
    · have inFirst := (same winner').mpr winnerMem'
      have equal := le_antisymm (bound' winner ((same winner).mp winnerMem) winnerId)
        (bound winner' inFirst winnerId')
      rw [won, won', equal, consistent winner winnerMem winner' inFirst
        (winnerId.trans winnerId'.symm) equal]

/-! ## Compaction -/

section Compaction

variable {Document Key : Type} [BEq Key] [LawfulBEq Key]

/-- The documents that carry a wanted key which no earlier document carries. -/
def compact (keys : Document → List Key) : List Document → List Key → List Document
  | [], _ => []
  | document :: rest, wanted =>
      let retained := compact keys rest (wanted.filter fun key => !(keys document).contains key)
      if (keys document).any wanted.contains then document :: retained else retained

variable (keys : Document → List Key)

omit [LawfulBEq Key] in
theorem compact_sublist (documents : List Document) (wanted : List Key) :
    (compact keys documents wanted).Sublist documents := by
  induction documents generalizing wanted with
  | nil => exact List.Sublist.slnil
  | cons document rest ih =>
      rw [compact]
      split
      · exact (ih _).cons_cons document
      · exact (ih _).cons document

theorem compact_carries (documents : List Document) (wanted : List Key) (document : Document)
    (member : document ∈ compact keys documents wanted) :
    ∃ key ∈ keys document, key ∈ wanted := by
  induction documents generalizing wanted with
  | nil => exact absurd member List.not_mem_nil
  | cons first rest ih =>
      have later (inRest : document ∈
          compact keys rest (wanted.filter fun key => !(keys first).contains key)) :
          ∃ key ∈ keys document, key ∈ wanted := by
        obtain ⟨key, carried, left⟩ := ih _ inRest
        exact ⟨key, carried, (List.mem_filter.mp left).1⟩
      rw [compact] at member
      split at member
      · rename_i carries
        rcases List.mem_cons.mp member with rfl | inRest
        · obtain ⟨key, carried, found⟩ := List.any_eq_true.mp carries
          exact ⟨key, carried, List.contains_iff_mem.mp found⟩
        · exact later inRest
      · exact later member

theorem not_wanted_of_compact_eq_nil (documents : List Document) (wanted : List Key)
    (nothing : compact keys documents wanted = []) (document : Document)
    (member : document ∈ documents) (key : Key) (carried : key ∈ keys document) : key ∉ wanted := by
  induction documents generalizing wanted with
  | nil => exact absurd member List.not_mem_nil
  | cons first rest ih =>
      rw [compact] at nothing
      split at nothing
      · cases nothing
      · rename_i carriesNone
        have firstMiss : ∀ other ∈ keys first, other ∉ wanted := by
          intro other otherCarried want
          exact carriesNone (List.any_eq_true.mpr
            ⟨other, otherCarried, List.contains_iff_mem.mpr want⟩)
        intro want
        rcases List.mem_cons.mp member with rfl | inRest
        · exact firstMiss key carried want
        · refine ih _ nothing inRest (List.mem_filter.mpr ⟨want, ?_⟩)
          have absent : key ∉ keys first := fun inFirst => firstMiss key inFirst want
          simpa using absent

/-- Every retained document uses up a wanted key. -/
theorem length_compact_le (documents : List Document) (wanted : List Key) :
    (compact keys documents wanted).length ≤ wanted.length := by
  induction documents generalizing wanted with
  | nil => exact Nat.zero_le _
  | cons document rest ih =>
      rw [compact]
      have shorter := List.length_filter_le (fun key => !(keys document).contains key) wanted
      split
      · rename_i carries
        obtain ⟨key, carried, found⟩ := List.any_eq_true.mp carries
        have used : (wanted.filter fun key => !(keys document).contains key).length <
            wanted.length := by
          rw [List.length_filter_lt_length_iff_exists]
          exact ⟨key, List.contains_iff_mem.mp found, by simpa using carried⟩
        rw [List.length_cons]
        exact Nat.lt_of_le_of_lt (ih _) used
      · exact Nat.le_trans (ih _) shorter

/-- The first document carrying a wanted key is retained, in its place. -/
theorem compact_first (before after : List Document) (document : Document) (wanted : List Key)
    (key : Key) (want : key ∈ wanted) (carried : key ∈ keys document)
    (first : ∀ earlier ∈ before, key ∉ keys earlier) :
    ∃ before' after', compact keys (before ++ document :: after) wanted =
      before' ++ document :: after' ∧ before'.Sublist before ∧ after'.Sublist after := by
  induction before generalizing wanted with
  | nil =>
      have carries : (keys document).any wanted.contains = true :=
        List.any_eq_true.mpr ⟨key, carried, List.contains_iff_mem.mpr want⟩
      refine ⟨[], compact keys after (wanted.filter fun key => !(keys document).contains key), ?_,
        List.Sublist.slnil, compact_sublist keys after _⟩
      rw [List.nil_append, compact, if_pos carries, List.nil_append]
  | cons earlier before ih =>
      have missing : key ∉ keys earlier := first earlier List.mem_cons_self
      have left : key ∈ wanted.filter fun key => !(keys earlier).contains key :=
        List.mem_filter.mpr ⟨want, by simpa using missing⟩
      obtain ⟨before', after', split, sublist, afterSublist⟩ :=
        ih _ left fun other member => first other (List.mem_cons_of_mem _ member)
      rw [List.cons_append, compact, split]
      split
      · exact ⟨earlier :: before', after', rfl, sublist.cons_cons earlier, afterSublist⟩
      · exact ⟨before', after', rfl, sublist.cons earlier, afterSublist⟩

variable (writes : Document → List (Write Id Revision Content))

/-- The first write of a given id and revision, with the documents and the writes around it. -/
private theorem exists_first_carrier (documents : List Document) (id : Id) (revision : Revision)
    (carried : ∃ update ∈ documents.flatMap writes, update.id = id ∧ update.revision = revision) :
    ∃ before document after front update back,
      documents = before ++ document :: after ∧ writes document = front ++ update :: back ∧
      update.id = id ∧ update.revision = revision ∧
      (∀ earlier ∈ before, ∀ other ∈ writes earlier, other.id = id → other.revision ≠ revision) ∧
      (∀ other ∈ front, other.id = id → other.revision ≠ revision) := by
  let hit (update : Write Id Revision Content) : Bool :=
    decide (update.id = id ∧ update.revision = revision)
  obtain ⟨update, member, isHit⟩ := carried
  obtain ⟨holder, holderMem, updateMem⟩ := List.mem_flatMap.mp member
  have someDocument : (documents.find? fun document => (writes document).any hit).isSome := by
    rw [List.find?_isSome]
    exact ⟨holder, holderMem, List.any_eq_true.mpr ⟨update, updateMem, decide_eq_true isHit⟩⟩
  obtain ⟨document, found⟩ := Option.isSome_iff_exists.mp someDocument
  obtain ⟨holds, before, after, split, earlier⟩ := List.find?_eq_some_iff_append.mp found
  have someWrite : ((writes document).find? hit).isSome := by
    rw [List.find?_isSome]
    exact List.any_eq_true.mp holds
  obtain ⟨first, foundFirst⟩ := Option.isSome_iff_exists.mp someWrite
  obtain ⟨firstHit, front, back, splitFirst, frontMiss⟩ :=
    List.find?_eq_some_iff_append.mp foundFirst
  have firstIs := of_decide_eq_true firstHit
  refine ⟨before, document, after, front, first, back, split, splitFirst, firstIs.1, firstIs.2,
    ?_, ?_⟩
  · intro other otherMem candidate candidateMem candidateId candidateRevision
    have noHit := earlier other otherMem
    simp only [Bool.not_eq_true', List.any_eq_false] at noHit
    exact noHit candidate candidateMem (decide_eq_true ⟨candidateId, candidateRevision⟩)
  · intro candidate candidateMem candidateId candidateRevision
    have noHit := frontMiss candidate candidateMem
    have isHit : hit candidate = true := decide_eq_true ⟨candidateId, candidateRevision⟩
    rw [isHit] at noHit
    cases noHit

omit [DecidableEq Id] in
private theorem below_of_atMost (id : Id) (revision : Revision)
    (updates : List (Write Id Revision Content)) (bound : AtMost id revision updates)
    (different : ∀ update ∈ updates, update.id = id → update.revision ≠ revision) :
    Below id revision updates := fun update member updateId =>
  lt_of_le_of_ne (bound update member updateId) (different update member updateId)

/-- Compacting a log to the documents that carry a final revision leaves what the log
writes unchanged. -/
theorem writeAll_compact (keyOf : Id → Revision → Key)
    (injective : ∀ id revision id' revision', keyOf id revision = keyOf id' revision' →
      id = id' ∧ revision = revision')
    (registers : Registers Id Revision Content) (documents : List Document) (wanted : List Key)
    (keysAre : ∀ document ∈ documents,
      keys document = (writes document).map fun update => keyOf update.id update.revision)
    (wantedAre : ∀ id held, writeAll registers (documents.flatMap writes) id = some held →
      keyOf id held.1 ∈ wanted) :
    writeAll registers ((compact keys documents wanted).flatMap writes) =
      writeAll registers (documents.flatMap writes) := by
  funext id
  have retained : ∀ update ∈ (compact keys documents wanted).flatMap writes,
      update ∈ documents.flatMap writes := by
    intro update member
    obtain ⟨document, inRetained, inWrites⟩ := List.mem_flatMap.mp member
    exact List.mem_flatMap.mpr
      ⟨document, (compact_sublist keys documents wanted).subset inRetained, inWrites⟩
  rcases writeAll_greatest registers (documents.flatMap writes) id with ⟨unchanged, allStale⟩ |
      ⟨winner, winnerMem, winnerId, fresh, atMost, won⟩
  · rw [unchanged]
    exact writeAll_unwritten registers _ id fun update member => allStale update (retained update member)
  · obtain ⟨before, document, after, front, update, back, split, splitWrites, updateId,
        updateRevision, beforeMiss, frontMiss⟩ :=
      exists_first_carrier writes documents id winner.revision
        ⟨winner, winnerMem, winnerId, rfl⟩
    have documentMem : document ∈ documents := by
      rw [split]
      exact List.mem_append_right _ List.mem_cons_self
    have updateFresh : ¬Stale (registers update.id) update.revision := by
      rwa [updateId, updateRevision]
    -- Both the whole log and the compacted one have this shape around the first carrier.
    have winsIn (earlier later : List Document) (earlierSub : earlier.Sublist before)
        (laterSub : later.Sublist after) :
        writeAll registers ((earlier ++ document :: later).flatMap writes) id =
          some (update.revision, update.content) := by
      have shape : (earlier ++ document :: later).flatMap writes =
          (earlier.flatMap writes ++ front) ++ update :: (back ++ later.flatMap writes) := by
        simp [splitWrites]
      have inLog (other : Write Id Revision Content)
          (member : other ∈ (earlier ++ document :: later).flatMap writes) :
          other ∈ documents.flatMap writes := by
        obtain ⟨holder, holderMem, otherMem⟩ := List.mem_flatMap.mp member
        refine List.mem_flatMap.mpr ⟨holder, ?_, otherMem⟩
        rw [split]
        exact (earlierSub.append (laterSub.cons_cons document)).subset holderMem
      rw [shape] at inLog ⊢
      rw [← updateId]
      apply writeAll_winner registers _ _ update updateFresh
      · rw [updateId, updateRevision]
        apply below_of_atMost
        · exact fun other member => atMost other (inLog other (List.mem_append_left _ member))
        · intro other member otherId
          rcases List.mem_append.mp member with inEarlier | inFront
          · obtain ⟨holder, holderMem, otherMem⟩ := List.mem_flatMap.mp inEarlier
            exact beforeMiss holder (earlierSub.subset holderMem) other otherMem otherId
          · exact frontMiss other inFront otherId
      · rw [updateId, updateRevision]
        exact fun other member => atMost other
          (inLog other (List.mem_append_right _ (List.mem_cons_of_mem _ member)))
    have whole := winsIn before after (List.Sublist.refl _) (List.Sublist.refl _)
    rw [← split] at whole
    have want : keyOf id winner.revision ∈ wanted := wantedAre id _ won
    have carried : keyOf id winner.revision ∈ keys document := by
      rw [keysAre document documentMem, splitWrites, ← updateId, ← updateRevision]
      exact List.mem_map_of_mem
        (f := fun update : Write Id Revision Content => keyOf update.id update.revision)
        (List.mem_append_right _ List.mem_cons_self)
    have beforeKeys : ∀ earlier ∈ before, keyOf id winner.revision ∉ keys earlier := by
      intro earlier member inKeys
      rw [keysAre earlier (by rw [split]; exact List.mem_append_left _ member)] at inKeys
      obtain ⟨other, otherMem, sameKey⟩ := List.mem_map.mp inKeys
      obtain ⟨sameId, sameRevision⟩ := injective _ _ _ _ sameKey
      exact beforeMiss earlier member other otherMem sameId sameRevision
    obtain ⟨before', after', compacted, beforeSub, afterSub⟩ :=
      compact_first keys before after document wanted _ want carried beforeKeys
    rw [whole]
    rw [split, compacted]
    exact winsIn before' after' beforeSub afterSub

end Compaction

end VgiWorker.LastWriter
