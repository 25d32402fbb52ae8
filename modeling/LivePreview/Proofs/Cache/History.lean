import LivePreview.Page.Decoder
import LivePreview.Proofs.Cache.Kept
import LivePreview.Proofs.Cache.Recency
import LivePreview.Toy.Layout
import Mathlib.Data.Finset.Card
import Mathlib.Data.Finset.Option
import Mathlib.Data.List.DropRight

/-!
# Which loads are hits

The render cache is an LRU store, so the keys in front of a key are those that were loaded
after it, each of them once (`Recent.Behind`).  A key is evicted as soon as there are as many
of them as the cache has room for, and room that is made later does not bring it back.

This decides every load of every history of a cache (`RenderCache.load_of_history`): its
result is that of decoding the page anew, and it is a hit if and only if the page was loaded
before and, at every moment since, fewer other keys were loaded than the cache had room for.
-/

namespace LivePreview

namespace Recent

variable {κ α : Type}

def keys (store : Recent κ α) : List κ :=
  store.entries.map (·.1)

variable [DecidableEq κ] {store : Recent κ α} {key other : κ} {newer : Finset κ}

theorem peek?_isSome_iff : (store.peek? key).isSome ↔ key ∈ store.keys := by
  simp [peek?, keys]

theorem peek?_eq_none_iff : store.peek? key = none ↔ key ∉ store.keys := by
  rw [← peek?_isSome_iff, Option.not_isSome_iff_eq_none]

theorem map_others (store : Recent κ α) (key : κ) :
    (store.others key).map (·.1) = store.keys.filter (· ≠ key) := by
  rw [keys, List.filter_map]
  rfl

theorem keys_touch (found : key ∈ store.keys) :
    (store.touch key).keys = key :: store.keys.filter (· ≠ key) := by
  obtain ⟨value, peeked⟩ := Option.isSome_iff_exists.mp (peek?_isSome_iff.mpr found)
  simp only [touch, peeked, ← map_others]
  rfl

theorem keys_insert (missing : key ∉ store.keys) (value : α) :
    (store.insert key value).keys = (key :: store.keys).take store.capacity := by
  have others : store.keys.filter (· ≠ key) = store.keys := by
    refine List.filter_eq_self.mpr fun k mem => ?_
    simpa using fun same : k = key => missing (same ▸ mem)
  rw [← others, ← map_others, insert, keys, List.map_take]
  rfl

theorem nodup_touch (nodup : store.keys.Nodup) (found : key ∈ store.keys) :
    (store.touch key).keys.Nodup := by
  rw [keys_touch found]
  exact List.nodup_cons.mpr ⟨by simp, nodup.filter _⟩

theorem nodup_insert (nodup : store.keys.Nodup) (missing : key ∉ store.keys) (value : α) :
    (store.insert key value).keys.Nodup := by
  rw [keys_insert missing]
  exact (List.nodup_cons.mpr ⟨missing, nodup⟩).sublist (List.take_sublist ..)

theorem mem_touch (found : other ∈ store.keys) :
    key ∈ (store.touch other).keys ↔ key ∈ store.keys := by
  rw [keys_touch found]
  by_cases same : key = other <;> simp [same, found]

theorem mem_of_mem_insert (missing : other ∉ store.keys) {value : α}
    (mem : key ∈ (store.insert other value).keys) (different : other ≠ key) :
    key ∈ store.keys := by
  rw [keys_insert missing] at mem
  exact (List.mem_cons.mp (List.mem_of_mem_take mem)).resolve_left different.symm

/-! ## What is in front of a key -/

/-- The key is in the store, and the keys in front of it are these. -/
def Behind (store : Recent κ α) (newer : Finset κ) (key : κ) : Prop :=
  ∃ front back, store.keys = front ++ key :: back ∧ front.toFinset = newer

theorem Behind.mem (behind : store.Behind newer key) : key ∈ store.keys := by
  obtain ⟨front, back, split, -⟩ := behind
  simp [split]

theorem Behind.card_lt_size (behind : store.Behind newer key) : newer.card < store.size := by
  obtain ⟨front, back, split, rfl⟩ := behind
  have length := congrArg List.length split
  have size : store.keys.length = store.size := List.length_map ..
  have card := front.toFinset_card_le
  grind

theorem behind_touch (found : key ∈ store.keys) : (store.touch key).Behind ∅ key :=
  ⟨[], _, keys_touch found, rfl⟩

theorem behind_insert (missing : key ∉ store.keys) (room : 0 < store.capacity) (value : α) :
    (store.insert key value).Behind ∅ key := by
  obtain ⟨capacity, enough⟩ := Nat.exists_eq_add_one.mpr room
  exact ⟨[], _, by rw [keys_insert missing, enough, List.take_succ_cons, List.nil_append], rfl⟩

/-- A key that is used comes to the front, from wherever it was. -/
theorem Behind.touch (behind : store.Behind newer key) (found : other ∈ store.keys)
    (different : other ≠ key) : (store.touch other).Behind (Insert.insert other newer) key := by
  obtain ⟨front, back, split, rfl⟩ := behind
  refine ⟨other :: front.filter (· ≠ other), back.filter (· ≠ other), ?_, ?_⟩
  · have stays : decide (key ≠ other) = true := by simpa using different.symm
    rw [keys_touch found, split, List.filter_append]
    simp only [List.filter_cons, stays, if_true, List.cons_append]
  · ext k
    by_cases same : k = other <;> simp [same]

section Insert

variable (behind : store.Behind newer key) (missing : other ∉ store.keys)
  (nodup : store.keys.Nodup) (value : α)
include behind missing nodup

/-- A new key is put in front, and what has as many keys in front of it then as there is room
    for is evicted. -/
theorem Behind.insert (room : (Insert.insert other newer).card < store.capacity) :
    (store.insert other value).Behind (Insert.insert other newer) key := by
  obtain ⟨front, back, split, rfl⟩ := behind
  have front_nodup : (other :: front).Nodup := by grind
  rw [← List.toFinset_cons, List.toFinset_card_of_nodup front_nodup] at room
  refine ⟨other :: front, back.take (store.capacity - (other :: front).length - 1), ?_,
    List.toFinset_cons⟩
  rw [keys_insert missing, split, ← List.cons_append, List.take_append,
    List.take_of_length_le room.le, List.take_cons (Nat.sub_pos_of_lt room)]

theorem Behind.evicted (full : ¬ (Insert.insert other newer).card < store.capacity) :
    key ∉ (store.insert other value).keys := by
  obtain ⟨front, back, split, rfl⟩ := behind
  have all_nodup : (other :: front ++ key :: back).Nodup := by grind
  have front_nodup : (other :: front).Nodup := all_nodup.of_append_left
  rw [← List.toFinset_cons, List.toFinset_card_of_nodup front_nodup, not_lt] at full
  rw [keys_insert missing, split, ← List.cons_append, List.take_append_of_le_length full]
  intro mem
  exact (List.disjoint_of_nodup_append all_nodup) (List.mem_of_mem_take mem) (.head _)

end Insert

end Recent

namespace RenderCache

theorem ensureCapacity_keys (cache : RenderCache) (displayed : Nat) :
    (cache.ensureCapacity displayed).1.pages.keys = cache.pages.keys := by
  unfold ensureCapacity
  split <;> rfl

/-! ## Histories -/

/-- What is done to a cache. -/
inductive Act
  | loads (page : Page)
  | grows (displayed : Nat)
  | clears

def SamePayload (page page' : Page) : Prop :=
  page.data = page'.data ∧ page.index = page'.index

theorem samePayload_iff {pages : List Page} (distinct : NoCollision pages) {page page' : Page}
    (mem : page ∈ pages) (mem' : page' ∈ pages) : SamePayload page' page ↔
      PageKey.of page'.data page'.index = .of page.data page.index := by
  rw [PageKey.of, PageKey.of, PageKey.mk.injEq]
  exact and_congr_left' ⟨congrArg Fingerprint.of, distinct page' mem' page mem⟩

section History

variable [ImageDecoder]

namespace Act

def page? : Act → Option Page
  | .loads page => some page
  | _ => none

/-- The key of a page that is loaded and can be decoded. -/
def key? : Act → Option PageKey
  | .loads page => (decodeAnew page.data page.index).toOption.map Loaded.key
  | _ => none

def keeps : Act → Bool
  | .clears => false
  | _ => true

/-- A page that is loaded is one of these. -/
def Knows (pages : List Page) (act : Act) : Prop :=
  ∀ page ∈ act.page?, page ∈ pages

end Act

def perform (cache : RenderCache) : Act → RenderCache
  | .loads page => (cache.load page).2
  | .grows displayed => (cache.ensureCapacity displayed).1
  | .clears => cache.clear

/-- The cache after these acts, from an empty one on. -/
def state (capacity : Nat) (acts : List Act) : RenderCache :=
  acts.foldl perform (.empty capacity)

theorem state_concat (capacity : Nat) (acts : List Act) (act : Act) :
    state capacity (acts ++ [act]) = (state capacity acts).perform act :=
  List.foldl_concat ..

def sinceClear (acts : List Act) : List Act :=
  acts.rtakeWhile Act.keeps

/-- The keys of the pages that were loaded, one for each load that succeeds. -/
def loadedKeys (acts : List Act) : List PageKey :=
  acts.filterMap Act.key?

/-! ## Acts on a sound cache -/

/-- A cache with images of these pages only, within its bounds, and with each key once. -/
structure Sound (pages : List Page) (cache : RenderCache) : Prop where
  images : cache.All (DecodedFrom pages)
  bounded : cache.Bounded
  nodup : cache.pages.keys.Nodup

/-- What an act does to a sound cache.  A page that is found could be decoded too, so a page
    that is no image is never found. -/
inductive Performs (cache : RenderCache) : Act → RenderCache → Prop
  | hit {page : Page} {loaded : Loaded} (decodes : decodeAnew page.data page.index = .ok loaded)
      (found : loaded.key ∈ cache.pages.keys) :
      Performs cache (.loads page)
        { cache with pages := cache.pages.touch loaded.key, hits := cache.hits + 1 }
  | miss {page : Page} {loaded : Loaded} (decodes : decodeAnew page.data page.index = .ok loaded)
      (missing : loaded.key ∉ cache.pages.keys) :
      Performs cache (.loads page)
        { cache with
          pages := cache.pages.insert loaded.key loaded.image, misses := cache.misses + 1 }
  | broken {page : Page} {f : Failure} (refused : decodeAnew page.data page.index = .error f) :
      Performs cache (.loads page) cache
  | grown (displayed : Nat) : Performs cache (.grows displayed) (cache.ensureCapacity displayed).1
  | cleared : Performs cache .clears cache.clear

section Sound

variable {pages : List Page} {cache cache' : RenderCache} {act : Act}

theorem Sound.empty (capacity : Nat) : Sound [] (.empty capacity) where
  images := .empty capacity
  bounded := Recent.Bounded.empty capacity
  nodup := List.nodup_nil

theorem Sound.mono {more : List Page} (sound : Sound pages cache) (sub : pages ⊆ more) :
    Sound more cache where
  images := sound.images.mono (.mono sub)
  bounded := sound.bounded
  nodup := sound.nodup

theorem Sound.load (sound : Sound pages cache) (distinct : NoCollision pages)
    {page : Page} (mem : page ∈ pages) :
    (cache.load page).1 = decodeAnew page.data page.index ∧
      Performs cache (.loads page) (cache.load page).2 := by
  have anew := load_eq distinct sound.images mem
  have loads := cache.load_loads page
  generalize cache.load page = answer at anew loads ⊢
  refine ⟨anew, ?_⟩
  cases loads with
  | hit found => exact .hit anew.symm (Recent.peek?_isSome_iff.mp (by simp [found]))
  | miss missing => exact .miss anew.symm (Recent.peek?_eq_none_iff.mp missing)
  | broken => exact .broken anew.symm

theorem Sound.performs (sound : Sound pages cache) (distinct : NoCollision pages)
    (known : act.Knows pages) : Performs cache act (cache.perform act) := by
  cases act with
  | loads page => exact (sound.load distinct (known page rfl)).2
  | grows displayed => exact .grown displayed
  | clears => exact .cleared

theorem Performs.nodup (performs : Performs cache act cache') (nodup : cache.pages.keys.Nodup) :
    cache'.pages.keys.Nodup := by
  cases performs with
  | hit _ found => exact Recent.nodup_touch nodup found
  | miss _ missing => exact Recent.nodup_insert nodup missing _
  | broken => exact nodup
  | grown displayed => exact cache.ensureCapacity_keys displayed ▸ nodup
  | cleared => exact List.nodup_nil

theorem Sound.perform (sound : Sound pages cache) (distinct : NoCollision pages)
    (known : act.Knows pages) : Sound pages (cache.perform act) := by
  have nodup := (sound.performs distinct known).nodup sound.nodup
  cases act with
  | loads page =>
    exact ⟨(sound.images.load fun _ decoded => ⟨page, known page rfl, rfl, decoded⟩).1,
      sound.bounded.load page, nodup⟩
  | grows displayed =>
    exact ⟨sound.images.ensureCapacity displayed, sound.bounded.ensureCapacity displayed, nodup⟩
  | clears => exact ⟨.clear cache, ⟨sound.bounded.room, Nat.zero_le _⟩, nodup⟩

theorem Sound.foldl (sound : Sound pages cache) (distinct : NoCollision pages) {acts : List Act}
    (known : ∀ act ∈ acts, act.Knows pages) :
    Sound pages (acts.foldl RenderCache.perform cache) := by
  induction acts generalizing cache with
  | nil => exact sound
  | cons act acts inductionHypothesis =>
    obtain ⟨first, others⟩ := List.forall_mem_cons.mp known
    exact inductionHypothesis (sound.perform distinct first) others

theorem sound_state (distinct : NoCollision pages) (capacity : Nat) {acts : List Act}
    (known : ∀ act ∈ acts, act.Knows pages) : Sound pages (state capacity acts) :=
  ((Sound.empty capacity).mono (List.nil_subset _)).foldl distinct known

end Sound

/-! ## What becomes of a key -/

/-- An act that neither clears the cache nor loads the key. -/
def Act.Spares (key : PageKey) (act : Act) : Prop :=
  act.keeps ∧ act.key? ≠ some key

theorem Act.key?_of_ok {page : Page} {loaded : Loaded}
    (ok : decodeAnew page.data page.index = .ok loaded) :
    (Act.loads page).key? = some loaded.key := by
  simp [key?, ok, Except.toOption]

theorem Act.key?_of_error {page : Page} {f : Failure}
    (refused : decodeAnew page.data page.index = .error f) : (Act.loads page).key? = none := by
  simp [key?, refused, Except.toOption]

theorem Act.loaded_of_key? {page : Page} {key : PageKey}
    (loads : (Act.loads page).key? = some key) :
    ∃ loaded, decodeAnew page.data page.index = .ok loaded ∧ loaded.key = key := by
  cases anew : decodeAnew page.data page.index with
  | error f => simp [key?_of_error anew] at loads
  | ok loaded => exact ⟨loaded, rfl, Option.some.inj ((key?_of_ok anew).symm.trans loads)⟩

theorem Act.Spares.ne {page : Page} {loaded : Loaded} {key : PageKey}
    (spares : (Act.loads page).Spares key) (ok : decodeAnew page.data page.index = .ok loaded) :
    loaded.key ≠ key :=
  fun same => spares.2 (same ▸ key?_of_ok ok)

section Trail

variable {pages : List Page} {cache cache' : RenderCache} {key : PageKey} {act : Act}

theorem Performs.absent (performs : Performs cache act cache') (spares : act.Spares key)
    (absent : key ∉ cache.pages.keys) : key ∉ cache'.pages.keys := by
  cases performs with
  | hit decodes found => rwa [Recent.mem_touch found]
  | miss decodes missing =>
    exact fun mem => absent (Recent.mem_of_mem_insert missing mem (spares.ne decodes))
  | broken => exact absent
  | grown displayed => exact cache.ensureCapacity_keys displayed ▸ absent
  | cleared => exact List.not_mem_nil

theorem Performs.keeps (performs : Performs cache act cache') (mem : key ∈ cache'.pages.keys) :
    act.keeps := by
  cases performs with
  | cleared => cases mem
  | _ => rfl

/-- A key stays as long as the cache has room for more keys than were loaded after it. -/
theorem Performs.behind (performs : Performs cache act cache') (bounded : cache.Bounded)
    (nodup : cache.pages.keys.Nodup) (spares : act.Spares key) {newer : Finset PageKey}
    (behind : cache.pages.Behind newer key) :
    if (act.key?.toFinset ∪ newer).card < cache'.capacity then
      cache'.pages.Behind (act.key?.toFinset ∪ newer) key
    else key ∉ cache'.pages.keys := by
  have room : newer.card < cache.capacity := Nat.lt_of_lt_of_le behind.card_lt_size bounded.size
  cases performs with
  | @hit page loaded decodes found =>
    rw [Act.key?_of_ok decodes, Option.toFinset_some, ← Finset.insert_eq]
    have touched := behind.touch found (spares.ne decodes)
    have size := Nat.le_trans (cache.pages.size_touch_le loaded.key) bounded.size
    have fits : (insert loaded.key newer).card < (cache.pages.touch loaded.key).capacity :=
      cache.pages.touch_capacity loaded.key ▸ Nat.lt_of_lt_of_le touched.card_lt_size size
    exact (if_pos fits).mpr touched
  | @miss page loaded decodes missing =>
    rw [Act.key?_of_ok decodes, Option.toFinset_some, ← Finset.insert_eq]
    split
    · next fits => exact behind.insert missing nodup _ fits
    · next full => exact behind.evicted missing nodup _ full
  | broken refused =>
    rw [Act.key?_of_error refused, Option.toFinset_none, Finset.empty_union, if_pos room]
    exact behind
  | grown displayed =>
    have fits : newer.card < (cache.ensureCapacity displayed).1.capacity := by
      rw [ensureCapacity_capacity]
      exact Nat.lt_of_lt_of_le room (Nat.le_max_left ..)
    rw [show (Act.grows displayed).key? = none from rfl, Option.toFinset_none,
      Finset.empty_union, if_pos fits, Recent.Behind, ensureCapacity_keys]
    exact behind
  | cleared => cases spares.1

/-- A key that was just loaded is the most recent one. -/
theorem Performs.first {page : Page} (performs : Performs cache (.loads page) cache')
    (bounded : cache.Bounded) {loaded : Loaded}
    (ok : decodeAnew page.data page.index = .ok loaded) : cache'.pages.Behind ∅ loaded.key := by
  cases performs with
  | hit decodes found =>
    obtain rfl := Except.ok.inj (ok.symm.trans decodes)
    exact Recent.behind_touch found
  | miss decodes missing =>
    obtain rfl := Except.ok.inj (ok.symm.trans decodes)
    exact Recent.behind_insert missing bounded.room _
  | broken refused => cases ok.symm.trans refused

end Trail

theorem loadedKeys_concat (acts : List Act) (act : Act) :
    loadedKeys (acts ++ [act]) = loadedKeys acts ++ act.key?.toList := by
  cases key : act.key? <;> simp [loadedKeys, key]

theorem toFinset_loadedKeys_concat (acts : List Act) (act : Act) :
    (loadedKeys (acts ++ [act])).toFinset = act.key?.toFinset ∪ (loadedKeys acts).toFinset := by
  cases key : act.key? <;> simp [loadedKeys_concat, key, Finset.union_comm]

/-- After each of these acts, fewer keys were loaded by them than the cache has room for. -/
def InTime (cache : RenderCache) (acts : List Act) : Prop :=
  ∀ more, more <+: acts → (loadedKeys more).toFinset.card < (more.foldl perform cache).capacity

theorem inTime_concat (cache : RenderCache) (acts : List Act) (act : Act) :
    InTime cache (acts ++ [act]) ↔ InTime cache acts ∧
      (act.key?.toFinset ∪ (loadedKeys acts).toFinset).card <
        ((acts.foldl perform cache).perform act).capacity := by
  rw [← toFinset_loadedKeys_concat, ← List.foldl_concat perform]
  constructor
  · intro inTime
    exact ⟨fun more starts => inTime more (starts.trans (List.prefix_append ..)),
      inTime _ (List.prefix_refl _)⟩
  · rintro ⟨inTime, last⟩ more starts
    rcases List.prefix_concat_iff.mp starts with rfl | shorter
    · exact last
    · exact inTime more shorter

section Trail

variable {pages : List Page} {cache : RenderCache} {key : PageKey} {acts : List Act}

theorem Sound.step (sound : Sound pages cache) (distinct : NoCollision pages) {act : Act}
    (known : ∀ other ∈ acts ++ [act], other.Knows pages) :
    (∀ act ∈ acts, act.Knows pages) ∧ Sound pages (acts.foldl RenderCache.perform cache) ∧
      Performs (acts.foldl RenderCache.perform cache) act
        ((acts ++ [act]).foldl RenderCache.perform cache) := by
  obtain ⟨before, last⟩ := List.forall_mem_append.mp known
  have earlier := sound.foldl distinct before
  rw [List.foldl_concat]
  exact ⟨before, earlier, earlier.performs distinct (last act (.head _))⟩

/-- By induction on what is done since the key was loaded: as long as all acts were in time,
    the keys in front of it are those that they loaded. -/
theorem Sound.trail (sound : Sound pages cache) (distinct : NoCollision pages)
    (first : cache.pages.Behind ∅ key) (known : ∀ act ∈ acts, act.Knows pages)
    (spared : ∀ act ∈ acts, act.Spares key) :
    (InTime cache acts →
      (acts.foldl RenderCache.perform cache).pages.Behind (loadedKeys acts).toFinset key) ∧
    (¬ InTime cache acts → key ∉ (acts.foldl RenderCache.perform cache).pages.keys) := by
  induction acts using List.reverseRecOn with
  | nil =>
    have room : InTime cache [] := by
      intro more starts
      obtain rfl := List.prefix_nil.mp starts
      exact sound.bounded.room
    exact ⟨fun _ => first, fun late => absurd room late⟩
  | append_singleton acts act inductionHypothesis =>
    obtain ⟨earlier, sound, performs⟩ := sound.step distinct known
    obtain ⟨behind, absent⟩ := inductionHypothesis earlier
      fun act mem => spared act (List.mem_append_left _ mem)
    have spares := spared act (by simp)
    rw [inTime_concat, toFinset_loadedKeys_concat, ← List.foldl_concat RenderCache.perform]
    refine ⟨fun ⟨before, fits⟩ => ?_, fun late => ?_⟩
    · have next := performs.behind sound.bounded sound.nodup spares (behind before)
      rwa [if_pos fits] at next
    · -- the first act that is not in time evicts the key, and no later one loads it
      by_cases before : InTime cache acts
      · have next := performs.behind sound.bounded sound.nodup spares (behind before)
        rwa [if_neg fun fits => late ⟨before, fits⟩] at next
      · exact performs.absent spares (absent before)

/-- What is in the cache was loaded, and since then the cache was not cleared. -/
theorem Sound.latest_load (sound : Sound pages cache) (distinct : NoCollision pages)
    (absent : key ∉ cache.pages.keys) (known : ∀ act ∈ acts, act.Knows pages)
    (mem : key ∈ (acts.foldl RenderCache.perform cache).pages.keys) :
    ∃ before act since, acts = before ++ act :: since ∧ act.key? = some key ∧
      ∀ act ∈ since, act.Spares key := by
  induction acts using List.reverseRecOn with
  | nil => exact absurd mem absent
  | append_singleton acts act inductionHypothesis =>
    obtain ⟨earlier, sound, performs⟩ := sound.step distinct known
    by_cases loads : act.key? = some key
    · exact ⟨acts, act, [], rfl, loads, by simp⟩
    · have spares : act.Spares key := ⟨performs.keeps mem, loads⟩
      have there : key ∈ (acts.foldl RenderCache.perform cache).pages.keys :=
        by_contra fun absent => performs.absent spares absent mem
      obtain ⟨before, latest, since, rfl, loaded, spared⟩ := inductionHypothesis earlier there
      refine ⟨before, latest, since ++ [act], by simp, loaded, fun other mem => ?_⟩
      rcases List.mem_append.mp mem with mem | mem
      · exact spared other mem
      · exact List.mem_singleton.mp mem ▸ spares

end Trail

/-! ## Loads after any history -/

/-- The page was loaded and not cleared away, and at every moment since it was loaded last,
    fewer other keys were loaded than the cache had room for. -/
def Remembered (capacity : Nat) (acts : List Act) (page : Page) : Prop :=
  ∃ before latest since, acts = before ++ .loads latest :: since ∧
    SamePayload latest page ∧ (∃ loaded, decodeAnew latest.data latest.index = .ok loaded) ∧
    (∀ act ∈ since, act ≠ .clears ∧ ∀ page', act = .loads page' → ¬ SamePayload page' page) ∧
    ∀ more, more <+: since → (loadedKeys more).toFinset.card <
      (state capacity (before ++ .loads latest :: more)).capacity

theorem decodeAnew_congr {page page' : Page} (same : SamePayload page page') :
    decodeAnew page.data page.index = decodeAnew page'.data page'.index := by
  rw [decodeAnew, decodeAnew, same.1, same.2]

theorem Remembered.decodes {capacity : Nat} {acts : List Act} {page : Page}
    (remembered : Remembered capacity acts page) :
    ∃ loaded, decodeAnew page.data page.index = .ok loaded := by
  obtain ⟨_, latest, _, -, same, decodes, -⟩ := remembered
  rwa [← decodeAnew_congr same]

section Acts

variable {pages : List Page} {acts : List Act} {page : Page}

/-- A page that can be decoded is spared by all but a clear and a load of it. -/
theorem spares_iff (distinct : NoCollision pages) (mem : page ∈ pages) {loaded : Loaded}
    (ok : decodeAnew page.data page.index = .ok loaded) {act : Act} (known : act.Knows pages) :
    act.Spares loaded.key ↔
      act ≠ .clears ∧ ∀ page', act = .loads page' → ¬ SamePayload page' page := by
  cases act with
  | loads page' =>
    rw [Act.Spares, (decodeAnew_ok ok).1]
    constructor
    · intro spares
      refine ⟨nofun, fun _ same payload => ?_⟩
      obtain rfl := Act.loads.inj same
      have loads := (decodeAnew_congr payload).trans ok
      exact spares.2 ((Act.key?_of_ok loads).trans (congrArg some (decodeAnew_ok ok).1))
    · intro others
      refine ⟨rfl, fun same => ?_⟩
      obtain ⟨loaded', ok', key⟩ := Act.loaded_of_key? same
      refine others.2 page' rfl ((samePayload_iff distinct mem (known page' rfl)).mpr ?_)
      rw [← (decodeAnew_ok ok').1, key]
  | grows displayed =>
    constructor
    · exact fun _ => ⟨nofun, nofun⟩
    · exact fun _ => ⟨rfl, nofun⟩
  | clears =>
    constructor
    · exact fun spares => nomatch spares.1
    · exact fun kept => absurd rfl kept.1

/-- What becomes of the cache from a load on. -/
theorem trail_of_load (distinct : NoCollision pages) (capacity : Nat) {before since : List Act}
    (known : ∀ act ∈ before ++ .loads page :: since, act.Knows pages) {loaded : Loaded}
    (ok : decodeAnew page.data page.index = .ok loaded)
    (spared : ∀ act ∈ since, act.Spares loaded.key) :
    loaded.key ∈ (state capacity (before ++ .loads page :: since)).pages.keys ↔
      ∀ more, more <+: since → (loadedKeys more).toFinset.card <
        (state capacity (before ++ .loads page :: more)).capacity := by
  obtain ⟨earlier, rest⟩ := List.forall_mem_append.mp known
  obtain ⟨first, later⟩ := List.forall_mem_cons.mp rest
  have sound := sound_state distinct capacity earlier
  have trail := (sound.perform distinct first).trail distinct
    ((sound.performs distinct first).first sound.bounded ok) later spared
  have cut (more : List Act) : state capacity (before ++ .loads page :: more) =
      more.foldl perform ((state capacity before).perform (.loads page)) :=
    List.foldl_append
  simp only [cut]
  exact ⟨fun there => by_contra fun late => trail.2 late there, fun inTime => (trail.1 inTime).mem⟩

/-- The page is found in the cache if and only if the history says so. -/
theorem remembered_iff (distinct : NoCollision pages) (capacity : Nat)
    (known : ∀ act ∈ acts, act.Knows pages) (mem : page ∈ pages) {loaded : Loaded}
    (ok : decodeAnew page.data page.index = .ok loaded) :
    loaded.key ∈ (state capacity acts).pages.keys ↔ Remembered capacity acts page := by
  have empty : Sound pages (.empty capacity) := (Sound.empty capacity).mono (List.nil_subset _)
  constructor
  · intro there
    obtain ⟨before, act, since, rfl, loads, spared⟩ :=
      empty.latest_load distinct List.not_mem_nil known there
    have later := (List.forall_mem_append.mp known).2
    cases act with
    | loads latest =>
      obtain ⟨loaded', ok', key⟩ := Act.loaded_of_key? loads
      -- the key of a load tells its payload, as no two pages collide
      have same : SamePayload latest page :=
        (samePayload_iff distinct mem (later _ (.head _) latest rfl)).mpr
          (by rw [← (decodeAnew_ok ok').1, key, (decodeAnew_ok ok).1])
      refine ⟨before, latest, since, rfl, same, ⟨loaded', ok'⟩, fun act since => ?_, ?_⟩
      · exact (spares_iff distinct mem ok (later act (.tail _ since))).mp (spared act since)
      · exact (trail_of_load distinct capacity known ok' (key ▸ spared)).mp (key ▸ there)
    | _ => cases loads
  · rintro ⟨before, latest, since, rfl, same, ⟨loaded', ok'⟩, others, inTime⟩
    have later := (List.forall_mem_append.mp known).2
    have key : loaded'.key = loaded.key := by
      rw [(decodeAnew_ok ok').1, (decodeAnew_ok ok).1, same.1, same.2]
    refine key ▸ (trail_of_load distinct capacity known ok' fun act since => key ▸ ?_).mpr inTime
    exact (spares_iff distinct mem ok (later act (.tail _ since))).mpr (others act since)

section Counters

variable {cache cache' : RenderCache} {act : Act}

theorem Performs.of_error (performs : Performs cache (.loads page) cache') {f : Failure}
    (refused : decodeAnew page.data page.index = .error f) : cache' = cache := by
  cases performs with
  | hit decodes => cases decodes.symm.trans refused
  | miss decodes => cases decodes.symm.trans refused
  | broken => rfl

theorem Performs.hit_iff (performs : Performs cache (.loads page) cache') :
    cache'.hits = cache.hits + 1 ↔
      ∃ loaded, decodeAnew page.data page.index = .ok loaded ∧ loaded.key ∈ cache.pages.keys := by
  cases performs with
  | hit decodes found => exact ⟨fun _ => ⟨_, decodes, found⟩, fun _ => rfl⟩
  | miss decodes missing =>
    refine ⟨fun counted => absurd counted (Nat.succ_ne_self _).symm, fun ⟨loaded, ok, found⟩ => ?_⟩
    obtain rfl := Except.ok.inj (ok.symm.trans decodes)
    exact absurd found missing
  | broken refused =>
    refine ⟨fun counted => absurd counted (Nat.succ_ne_self _).symm, fun ⟨loaded, ok, _⟩ => ?_⟩
    cases ok.symm.trans refused

theorem Performs.counts (performs : Performs cache act cache') :
    cache'.hits + cache'.misses =
      if act.keeps then cache.hits + cache.misses + act.key?.toList.length else 0 := by
  cases performs with
  | hit decodes =>
    rw [Act.key?_of_ok decodes]
    exact Nat.add_right_comm ..
  | miss decodes =>
    rw [Act.key?_of_ok decodes]
    rfl
  | broken refused =>
    rw [Act.key?_of_error refused]
    rfl
  | grown displayed =>
    unfold ensureCapacity
    split <;> rfl
  | cleared => rfl

end Counters

/-- The counters count the loads that succeed. -/
theorem hits_add_misses (distinct : NoCollision pages) (capacity : Nat)
    (known : ∀ act ∈ acts, act.Knows pages) :
    (state capacity acts).hits + (state capacity acts).misses =
      (loadedKeys (sinceClear acts)).length := by
  induction acts using List.reverseRecOn with
  | nil => rfl
  | append_singleton acts act inductionHypothesis =>
    obtain ⟨before, last⟩ := List.forall_mem_append.mp known
    have performs := (sound_state distinct capacity before).performs distinct (last act (.head _))
    rw [state_concat, performs.counts, inductionHypothesis before]
    unfold sinceClear
    rw [List.rtakeWhile_concat]
    split
    · rw [loadedKeys_concat, List.length_append]
    · rfl

end Acts

/-- A load after any history of a cache, among pages whose bytes are told apart by their
    fingerprints. -/
theorem load_of_history (capacity : Nat) (acts : List Act) (page : Page)
    (distinct : NoCollision ((acts ++ [Act.loads page]).filterMap Act.page?)) :
    let cache := state capacity acts
    (cache.load page).1 = decodeAnew page.data page.index ∧
    (∀ f, (cache.load page).1 = .error f → (cache.load page).2 = cache) ∧
    cache.hits + cache.misses = (loadedKeys (sinceClear acts)).length ∧
    ((cache.load page).2.hits = cache.hits + 1 ↔ Remembered capacity acts page) := by
  have known : ∀ act ∈ acts ++ [Act.loads page],
      act.Knows ((acts ++ [Act.loads page]).filterMap Act.page?) :=
    fun act mem page found => List.mem_filterMap.mpr ⟨act, mem, found⟩
  obtain ⟨earlier, last⟩ := List.forall_mem_append.mp known
  have mem := last _ (.head _) page rfl
  obtain ⟨anew, performs⟩ := (sound_state distinct capacity earlier).load distinct mem
  refine ⟨anew, fun f refused => performs.of_error (anew.symm.trans refused),
    hits_add_misses distinct capacity earlier, performs.hit_iff.trans ⟨?_, fun remembered => ?_⟩⟩
  · rintro ⟨loaded, ok, found⟩
    exact (remembered_iff distinct capacity earlier mem ok).mp found
  · obtain ⟨loaded, ok⟩ := remembered.decodes
    exact ⟨loaded, ok, (remembered_iff distinct capacity earlier mem ok).mpr remembered⟩

end History

attribute [local instance] pngDecoder

/-- An empty page is loaded, and then another one is in its place.  Room for a second page
    that is made in between lets the first one stay, and room that is made later comes too
    late. -/
theorem room_in_time : ∃ page other : Page,
    Remembered 1 [.loads page, .grows 1, .loads other] page ∧
    ¬ Remembered 1 [.loads page, .loads other, .grows 1] page := by
  let page : Page := ⟨0, 1, 1, Toy.pagePng ""⟩
  let other : Page := ⟨1, 1, 1, Toy.pagePng ""⟩
  have one : ∀ p ∈ [page, other, page], p.data = Toy.pagePng "" := by simp [page, other]
  have distinct : NoCollision [page, other, page] := fun p mem p' mem' _ =>
    (one p mem).trans (one p' mem').symm
  refine ⟨page, other, ?_, fun remembered => ?_⟩
  · exact (load_of_history 1 [.loads page, .grows 1, .loads other] page distinct).2.2.2.mp
      (by decide +kernel)
  · have hit := (load_of_history 1 [.loads page, .loads other, .grows 1] page
      distinct).2.2.2.mpr remembered
    exact absurd hit (by decide +kernel)

end RenderCache

end LivePreview
