import LivePreview.Cache.Render

/-!
# How long the render cache remembers

An entry leaves the cache only if it is the least recent one and the cache is full.  So what
matters is how many entries were used after it: a page that is loaded is the most recent entry,
and what was among the first `n` entries before is among the first `n + 1` then, as long as the
cache has room for so many.
-/

namespace LivePreview

namespace Recent

variable {κ α : Type} {store : Recent κ α}

/-- A store with room, and with no more entries than it has room for. -/
structure Bounded (store : Recent κ α) : Prop where
  room : 1 ≤ store.capacity
  size : store.size ≤ store.capacity

theorem Bounded.empty (capacity : Nat) : (empty capacity : Recent κ α).Bounded where
  room := Nat.le_max_right ..
  size := Nat.zero_le _

theorem Bounded.grow (bounded : store.Bounded) (capacity : Nat) :
    (store.grow capacity).Bounded where
  room := Nat.le_trans bounded.room (Nat.le_max_left ..)
  size := Nat.le_trans bounded.size (Nat.le_max_left ..)

variable [DecidableEq κ] {key other : κ} {value : α} {n : Nat}

theorem Bounded.insert (bounded : store.Bounded) (key : κ) (value : α) :
    (store.insert key value).Bounded where
  room := bounded.room
  size := List.length_take_le ..

theorem touch_capacity (store : Recent κ α) (key : κ) :
    (store.touch key).capacity = store.capacity := by
  unfold Recent.touch
  split <;> rfl

/-- What is touched was there before, so it takes no more room. -/
theorem size_touch_le (store : Recent κ α) (key : κ) : (store.touch key).size ≤ store.size := by
  unfold Recent.touch
  split
  · next value found =>
    obtain ⟨entry, first, -⟩ := Option.map_eq_some_iff.mp found
    have mem := List.mem_of_find?_eq_some first
    have same : entry.1 = key := by simpa using List.find?_some first
    exact List.length_filter_lt_length_iff_exists.mpr ⟨entry, mem, by simp [same]⟩
  · exact Nat.le_refl _

theorem Bounded.touch (bounded : store.Bounded) (key : κ) : (store.touch key).Bounded where
  room := store.touch_capacity key ▸ bounded.room
  size := store.touch_capacity key ▸ Nat.le_trans (store.size_touch_le key) bounded.size

/-! ## Order of use -/

/-- A value is found under a key without a look beyond the `n` most recent entries. -/
def Recalls (store : Recent κ α) (n : Nat) (key : κ) (value : α) : Prop :=
  Recent.peek? { store with entries := store.entries.take n } key = some value

theorem peek?_of_prefix {entries entries' : List (κ × α)} (starts : entries <+: entries')
    {c d : Nat} (found : Recent.peek? ⟨c, entries⟩ key = some value) :
    Recent.peek? ⟨d, entries'⟩ key = some value := by
  obtain ⟨entry, first, rfl⟩ := Option.map_eq_some_iff.mp found
  exact Option.map_eq_some_iff.mpr ⟨entry, starts.find?_eq_some first, rfl⟩

theorem Recalls.peek (recalls : store.Recalls n key value) : store.peek? key = some value :=
  peek?_of_prefix (List.take_prefix n store.entries) recalls

theorem Recalls.mono (recalls : store.Recalls n key value) {m : Nat} (le : n ≤ m) :
    store.Recalls m key value :=
  peek?_of_prefix (List.take_prefix_take_left le) recalls

theorem Recalls.grow (recalls : store.Recalls n key value) (capacity : Nat) :
    (store.grow capacity).Recalls n key value :=
  recalls

theorem recalls_first (store : Recent κ α) (capacity : Nat) :
    Recalls ⟨capacity, (key, value) :: store.others key⟩ 1 key value := by
  simp [Recalls, peek?]

/-- An entry falls back by one place if another one is put in front. -/
theorem Recalls.behind (recalls : store.Recalls n key value) (different : other ≠ key)
    (newer : α) (capacity : Nat) :
    Recalls ⟨capacity, (other, newer) :: store.others other⟩ (n + 1) key value := by
  have kept : Recent.peek? ⟨capacity, (store.entries.take n).filter fun e => e.1 ≠ other⟩ key =
      some value := by
    rw [← recalls, peek?, peek?, List.find?_filter]
    congr 2
    funext e
    by_cases same : e.1 = key <;> simp [same, Ne.symm different]
  have starts : (store.entries.take n).filter (fun e => e.1 ≠ other) <+:
      (store.others other).take n := by
    rw [List.prefix_take_iff]
    refine ⟨(List.take_prefix n store.entries).filter _, ?_⟩
    exact Nat.le_trans (List.length_filter_le ..) (List.length_take_le ..)
  have found := peek?_of_prefix (d := capacity) starts kept
  simpa [Recalls, peek?, List.find?_cons, different] using found

theorem Recalls.touch (recalls : store.Recalls n key value) (other : κ) :
    (store.touch other).Recalls (n + 1) key value := by
  unfold Recent.touch
  split
  · next newer found =>
    by_cases same : other = key
    · subst same
      obtain rfl : value = newer := Option.some.inj (recalls.peek.symm.trans found)
      exact (recalls_first store _).mono (Nat.le_add_left 1 n)
    · exact recalls.behind same newer _
  · exact recalls.mono (Nat.le_succ n)

theorem recalls_touch (found : store.peek? key = some value) :
    (store.touch key).Recalls 1 key value := by
  simpa only [Recent.touch, found] using recalls_first store _

theorem take_recalls {entries : List (κ × α)} {capacity : Nat} (le : n ≤ capacity)
    (recalls : Recalls ⟨capacity, entries⟩ n key value) :
    Recalls ⟨capacity, entries.take capacity⟩ n key value := by
  simpa only [Recalls, List.take_take, Nat.min_eq_left le] using recalls

theorem Recalls.insert (recalls : store.Recalls n key value) (room : n < store.capacity)
    (different : other ≠ key) (newer : α) :
    (store.insert other newer).Recalls (n + 1) key value :=
  take_recalls room (recalls.behind different newer _)

theorem recalls_insert (room : 0 < store.capacity) (key : κ) (value : α) :
    (store.insert key value).Recalls 1 key value :=
  take_recalls room (recalls_first store _)

end Recent

namespace RenderCache

variable {cache : RenderCache} {key : PageKey} {image : PageImage} {n : Nat}

/-- The image of a key is among the `n` most recent ones. -/
def Recalls (cache : RenderCache) (n : Nat) (key : PageKey) (image : PageImage) : Prop :=
  cache.pages.Recalls n key image

def Bounded (cache : RenderCache) : Prop :=
  cache.pages.Bounded

/-! ## Pages that are loaded -/

section Loads

variable [ImageDecoder]

/-- A page that is found is used, a page that is decoded is put in front, and a page that is no
    image leaves the cache alone. -/
inductive Loads (cache : RenderCache) (page : Page) :
    Except Failure Loaded × RenderCache → Prop
  | hit {image : PageImage} (found : cache.pages.peek? (.of page.data page.index) = some image) :
      Loads cache page (.ok ⟨.of page.data page.index, image⟩,
        { cache with
          pages := cache.pages.touch (.of page.data page.index), hits := cache.hits + 1 })
  | miss {image : PageImage} (missing : cache.pages.peek? (.of page.data page.index) = none) :
      Loads cache page (.ok ⟨.of page.data page.index, image⟩,
        { cache with
          pages := cache.pages.insert (.of page.data page.index) image,
          misses := cache.misses + 1 })
  | broken (f : Failure) : Loads cache page (.error f, cache)

theorem load_loads (cache : RenderCache) (page : Page) : Loads cache page (cache.load page) := by
  unfold load
  simp only [get]
  cases found : cache.pages.peek? (.of page.data page.index) with
  | some image => exact .hit found
  | none =>
    cases decodeImage page.data with
    | error e => exact .broken _
    | ok image => exact .miss found

theorem load_capacity (cache : RenderCache) (page : Page) :
    (cache.load page).2.capacity = cache.capacity := by
  have loads := cache.load_loads page
  generalize cache.load page = answer at loads ⊢
  cases loads with
  | hit => exact cache.pages.touch_capacity _
  | miss => rfl
  | broken => rfl

theorem Bounded.load (bounded : cache.Bounded) (page : Page) : (cache.load page).2.Bounded := by
  have loads := cache.load_loads page
  generalize cache.load page = answer at loads ⊢
  cases loads with
  | hit => exact Recent.Bounded.touch bounded _
  | miss => exact Recent.Bounded.insert bounded _ _
  | broken => exact bounded

/-- A page that is loaded pushes the others back by one place at most. -/
theorem Recalls.load (recalls : cache.Recalls n key image) (room : n < cache.capacity)
    (page : Page) : (cache.load page).2.Recalls (n + 1) key image := by
  have loads := cache.load_loads page
  generalize cache.load page = answer at loads ⊢
  cases loads with
  | hit => exact Recent.Recalls.touch recalls _
  | miss missing =>
    refine Recent.Recalls.insert recalls room (fun same => ?_) _
    rw [same, Recent.Recalls.peek recalls] at missing
    cases missing
  | broken => exact Recent.Recalls.mono recalls (Nat.le_succ n)

theorem recalls_loaded (room : 0 < cache.capacity) (page : Page) {loaded : Loaded}
    (ok : (cache.load page).1 = .ok loaded) :
    (cache.load page).2.Recalls 1 loaded.key loaded.image := by
  have loads := cache.load_loads page
  generalize cache.load page = answer at ok loads ⊢
  cases loads with
  | hit found =>
    obtain rfl := Except.ok.inj ok
    exact Recent.recalls_touch found
  | miss =>
    obtain rfl := Except.ok.inj ok
    exact Recent.recalls_insert room _ _
  | broken => cases ok

theorem load_of_recalls {page : Page} (recalls : cache.Recalls n (.of page.data page.index) image) :
    cache.load page = (.ok ⟨.of page.data page.index, image⟩,
      { cache with
        pages := cache.pages.touch (.of page.data page.index), hits := cache.hits + 1 }) := by
  simp [load, get, Recent.Recalls.peek recalls]

end Loads

/-! ## Room for what is displayed -/

theorem Recalls.ensureCapacity (recalls : cache.Recalls n key image) (displayed : Nat) :
    (cache.ensureCapacity displayed).1.Recalls n key image := by
  unfold RenderCache.ensureCapacity
  split
  · exact Recent.Recalls.grow recalls _
  · exact recalls

theorem Bounded.ensureCapacity (bounded : cache.Bounded) (displayed : Nat) :
    (cache.ensureCapacity displayed).1.Bounded := by
  unfold RenderCache.ensureCapacity
  split
  · exact Recent.Bounded.grow bounded _
  · exact bounded

/-- The cache grows to what is wanted, and never shrinks. -/
theorem ensureCapacity_capacity (cache : RenderCache) (displayed : Nat) :
    (cache.ensureCapacity displayed).1.capacity = max cache.capacity (wanted displayed) := by
  unfold ensureCapacity
  split
  · rfl
  · next enough => exact (Nat.max_eq_left (Nat.le_of_not_lt enough)).symm

theorem wanted_eq {displayed : Nat} (fits : 2 * displayed < Text.wordLimit) :
    wanted displayed = 2 * displayed :=
  Nat.min_eq_left (Nat.le_sub_one_of_lt fits)

end RenderCache

end LivePreview
