import Mathlib.Algebra.BigOperators.Group.Finset.Basic
import Mathlib.Data.List.AList

/-!
# Dictionaries built from dictionaries

The dictionaries a Python program builds in a loop over the items of another
one, with at most one assignment per item and at the item's own key. What is
stored at a key depends on what the other dictionary stores there alone.
-/

namespace MlopsPlatform.PythonDict

variable {K V W X : Type*} [DecidableEq K]

/-- A dictionary. Its order is left out of account. -/
abbrev Dict (K V : Type*) := AList (fun _ : K => V)

/-- Entries with distinct keys. -/
abbrev Items (K V : Type*) := List ((_ : K)×V)

/-- `for key, value in items: start[key] = assign(key, value)`, where some items
may be passed over. -/
def collectItems (assign : K→V→Option W) (start : Dict K W) (items : Items K V) : Dict K W :=
  items.foldl (fun built item => (assign item.1 item.2).elim built (built.insert item.1)) start

/-- The same over the items of a dictionary. -/
def collect (assign : K→V→Option W) (start : Dict K W) (d : Dict K V) : Dict K W :=
  collectItems assign start d.entries

/-- `{key: assign(key, value) for key, value in items}`, where an assignment may
raise. -/
def collectItemsM (assign : K→V→Except X W) : Dict K W→Items K V→Except X (Dict K W)
  | built,[] => .ok built
  | built,item::items =>
    match assign item.1 item.2 with
    | .ok value => collectItemsM assign (built.insert item.1 value) items
    | .error e => .error e

/-- The same over the items of a dictionary. -/
def collectM (assign : K→V→Except X W) (d : Dict K V) : Except X (Dict K W) :=
  collectItemsM assign ∅ d.entries

/-- `set(d)` -/
def keySet (d : Dict K V) : Finset K := d.keys.toFinset

/-- `d[key]`, of a key that is there. -/
def item [Zero V] (d : Dict K V) (key : K) : V := (d.lookup key).getD 0

/-- `sum(d.values())` -/
def sumValues [AddMonoid V] (d : Dict K V) : V := (d.entries.map Sigma.snd).sum

theorem mem_keySet {d : Dict K V} {key : K} : key∈keySet d ↔ ∃ value,d.lookup key=some value := by
  rw [keySet,List.mem_toFinset,←AList.mem_keys,←AList.lookup_isSome,Option.isSome_iff_exists]

/-- `all(check(key, value) for key, value in d.items())` -/
theorem all_entries_iff {d : Dict K V} {check : (_ : K)×V→Bool} :
    d.entries.all check=true ↔ ∀ key value,d.lookup key=some value → check ⟨key,value⟩=true := by
  rw [List.all_eq_true]
  constructor
  · exact fun h key value hvalue => h _ (AList.mem_lookup_iff.mp hvalue)
  · rintro h ⟨key,value⟩ hentry
    exact h key value (AList.mem_lookup_iff.mpr hentry)

/-- An assignment at an item's own key is all that happens to that key. -/
theorem lookup_collectItems {assign : K→V→Option W} {items : Items K V} (hnodup : items.NodupKeys)
    (start : Dict K W) (key : K) : (collectItems assign start items).lookup key=
      ((items.dlookup key).bind (assign key)).or (start.lookup key) := by
  induction items generalizing start with
  | nil => rfl
  | cons first items ih =>
    obtain ⟨other,value⟩ := first
    obtain ⟨hfresh,hnodup⟩ := List.nodupKeys_cons.mp hnodup
    have hrest := ih hnodup ((assign other value).elim start (start.insert other))
    refine hrest.trans ?_
    by_cases hkey : key=other
    · subst hkey
      rw [List.dlookup_cons_eq,List.dlookup_eq_none.mpr hfresh,Option.bind_none,Option.bind_some,
        Option.none_or]
      cases assign key value with
      | none => rfl
      | some w => exact AList.lookup_insert start
    · rw [List.dlookup_cons_ne _ _ hkey]
      cases assign other value with
      | none => rfl
      | some w => exact congrArg _ (AList.lookup_insert_ne hkey)

/-- What a built dictionary stores at a key. -/
theorem lookup_collect (assign : K→V→Option W) (start : Dict K W) (d : Dict K V) (key : K) :
    (collect assign start d).lookup key=
      ((d.lookup key).bind (assign key)).or (start.lookup key) :=
  lookup_collectItems d.nodupKeys start key

/-- An assignment that may raise stores what it returns. -/
theorem lookup_collectItemsM {assign : K→V→Except X W} {items : Items K V}
    (hnodup : items.NodupKeys) {start built : Dict K W}
    (hbuilt : collectItemsM assign start items=.ok built) (key : K) :
    built.lookup key=
      ((items.dlookup key).bind (fun value => (assign key value).toOption)).or (start.lookup key) ∧
      ∀ value,items.dlookup key=some value → ∃ w,assign key value=.ok w := by
  induction items generalizing start with
  | nil =>
    cases hbuilt
    exact ⟨rfl,fun _ h => (by cases h)⟩
  | cons first items ih =>
    obtain ⟨other,value⟩ := first
    obtain ⟨hfresh,hnodup⟩ := List.nodupKeys_cons.mp hnodup
    cases hassign : assign other value with
    | error e =>
      rw [collectItemsM,hassign] at hbuilt
      cases hbuilt
    | ok w =>
      rw [collectItemsM,hassign] at hbuilt
      obtain ⟨hlookup,hok⟩ := ih hnodup hbuilt
      by_cases hkey : key=other
      · subst hkey
        rw [List.dlookup_cons_eq]
        rw [List.dlookup_eq_none.mpr hfresh,AList.lookup_insert] at hlookup
        refine ⟨?_,fun v hv => ?_⟩
        · rw [hlookup,Option.bind_some,hassign]
          rfl
        · cases hv
          exact ⟨w,hassign⟩
      · rw [List.dlookup_cons_ne _ _ hkey]
        rw [AList.lookup_insert_ne hkey] at hlookup
        exact ⟨hlookup,hok⟩

/-- What is stored where every assignment went through. -/
theorem lookup_collectM {assign : K→V→Except X W} {d : Dict K V} {built : Dict K W}
    (hbuilt : collectM assign d=.ok built) (key : K) :
    built.lookup key=(d.lookup key).bind (fun value => (assign key value).toOption) ∧
      ∀ value,d.lookup key=some value → ∃ w,assign key value=.ok w := by
  obtain ⟨hlookup,hok⟩ := lookup_collectItemsM d.nodupKeys hbuilt key
  rw [AList.lookup_empty,Option.or_none] at hlookup
  exact ⟨hlookup,hok⟩

/-- Its keys are those of the dictionary it is built from. -/
theorem keySet_collectM {assign : K→V→Except X W} {d : Dict K V} {built : Dict K W}
    (hbuilt : collectM assign d=.ok built) : keySet built=keySet d := by
  ext key
  obtain ⟨hlookup,hok⟩ := lookup_collectM hbuilt key
  rw [mem_keySet,mem_keySet,hlookup]
  constructor
  · rintro ⟨w,hw⟩
    obtain ⟨value,hv,-⟩ := Option.bind_eq_some_iff.mp hw
    exact ⟨value,hv⟩
  · rintro ⟨value,hv⟩
    obtain ⟨w,hw⟩ := hok value hv
    exact ⟨w,by rw [hv,Option.bind_some,hw]; rfl⟩

/-- The values of a dictionary are summed key by key. -/
theorem sumValues_eq [AddCommMonoid V] {d : Dict K V} {value : K→V}
    (h : ∀ key v,d.lookup key=some v → v=value key) : sumValues d=∑ key∈keySet d,value key := by
  have hvalues : d.entries.map Sigma.snd=d.keys.map value := by
    rw [AList.keys,List.keys,List.map_map]
    refine List.map_congr_left (fun entry he => ?_)
    exact h entry.1 entry.2 (AList.mem_lookup_iff.mpr he)
  rw [sumValues,hvalues,keySet]
  exact (List.sum_toFinset value d.keys_nodup).symm

section Ordered

/-- `d[key] = value`, of a dictionary as the list of its entries: a new key is
added at the end, one that is there keeps its place. -/
def put : List (K×V)→K→V→List (K×V)
  | [],key,value => [(key,value)]
  | entry::d,key,value => if entry.1=key then (key,value)::d else entry::put d key value

/-- `{**d, **other}` -/
def merge (d other : List (K×V)) : List (K×V) :=
  other.foldl (fun merged entry => put merged entry.1 entry.2) d

/-- A key that is not there is added at the end. -/
theorem put_fresh {d : List (K×V)} {key : K} (h : key∉d.map Prod.fst) (value : V) :
    put d key value=d++[(key,value)] := by
  induction d with
  | nil => rfl
  | cons entry d ih =>
    rw [List.map_cons,List.mem_cons,not_or] at h
    rw [put,if_neg (fun he => h.1 he.symm),ih h.2,List.cons_append]

/-- Entries under keys of their own are added as they are. -/
theorem merge_fresh {d other : List (K×V)} (h : ((d++other).map Prod.fst).Nodup) :
    merge d other=d++other := by
  induction other generalizing d with
  | nil => rw [List.append_nil,merge,List.foldl_nil]
  | cons entry other ih =>
    have hfresh : entry.1∉d.map Prod.fst := by
      rw [List.map_append,List.map_cons,List.nodup_append] at h
      exact fun hm => h.2.2 _ hm _ List.mem_cons_self rfl
    rw [merge,List.foldl_cons,put_fresh hfresh]
    refine (ih ?_).trans (List.append_assoc d [entry] other)
    rwa [List.append_assoc]

end Ordered

end MlopsPlatform.PythonDict
