/-
  Lists of named things of which the last under a name counts.

  Writing the members of an object one after the other keeps, for every name, its first place and its
  last value.  `latest` says that without writing anything: the names without repetitions, each with the
  last thing listed under it.  Columns of a document, table properties and the versions of a table are all
  read in this way, so what is proved here once serves all of them.

  A list is taken apart at its end here, because that is where the next member is written.
-/
import SchemaCatalog.Proofs.Value.Named
import Mathlib.Data.List.Basic
import Mathlib.Data.List.Induction

namespace SchemaCatalog

variable {κ α β : Type} [DecidableEq κ]

/-- The last thing listed under a name. -/
def lastUnder (name : κ) (ps : List (κ × α)) : Option α :=
  ((ps.filter fun p => p.1 == name).getLast?).map Prod.snd

/-- Each name once, at its first place and with the last thing listed under it. -/
def latest (ps : List (κ × α)) : List (κ × α) :=
  (ps.map Prod.fst).eraseDups.filterMap fun name => (lastUnder name ps).map fun a => (name, a)

/-! ## The last thing under a name -/

theorem lastUnder_append (name : κ) (ps : List (κ × α)) (n : κ) (a : α) :
    lastUnder name (ps ++ [(n, a)]) = if n = name then some a else lastUnder name ps := by
  by_cases h : n = name
  · simp [lastUnder, h]
  · simp [lastUnder, h]

/-- Of two lists the second counts, where it has the name. -/
theorem lastUnder_append_list (name : κ) (ps qs : List (κ × α)) :
    lastUnder name (ps ++ qs) = (lastUnder name qs).or (lastUnder name ps) := by
  rw [lastUnder, List.filter_append, List.getLast?_append, Option.map_or]
  rfl

theorem lastUnder_map (f : α → β) (name : κ) (ps : List (κ × α)) :
    lastUnder name (ps.map fun p => (p.1, f p.2)) = (lastUnder name ps).map f := by
  simp [lastUnder, List.filter_map, List.getLast?_map, Function.comp_def]

/-- Something is listed under each name of the list. -/
theorem lastUnder_isSome {name : κ} {ps : List (κ × α)} :
    (lastUnder name ps).isSome ↔ name ∈ ps.map Prod.fst := by
  simp only [lastUnder, Option.isSome_map, List.getLast?_isSome, ne_eq, List.filter_eq_nil_iff, beq_iff_eq,
    List.mem_map]
  constructor
  · intro h
    by_contra hne
    exact h fun p hp hn => hne ⟨p, hp, hn⟩
  · rintro ⟨p, hp, hn⟩ h
    exact h p hp hn

theorem lastUnder_mem {name : κ} {ps : List (κ × α)} {a : α} (h : lastUnder name ps = some a) :
    (name, a) ∈ ps := by
  obtain ⟨p, hp, rfl⟩ := Option.map_eq_some_iff.mp h
  have hmem := List.mem_of_getLast? hp
  rw [List.mem_filter, beq_iff_eq] at hmem
  exact hmem.2 ▸ hmem.1

/-! ## The names -/

theorem nodup_eraseDups : ∀ names : List κ, names.eraseDups.Nodup
  | [] => List.nodup_nil
  | n :: names => by
    rw [List.eraseDups_cons, List.nodup_cons]
    exact ⟨by simp, nodup_eraseDups (names.filter fun m => !m == n)⟩
termination_by names => names.length
decreasing_by exact Nat.lt_succ_of_le (List.length_filter_le _ _)

/-- A name that is new comes last. -/
theorem eraseDups_append_new {n : κ} {names : List κ} (h : n ∉ names) :
    (names ++ [n]).eraseDups = names.eraseDups ++ [n] := by
  rw [List.eraseDups_append]
  simp [List.removeAll, h, List.eraseDups_cons]

/-- A name that is there already is dropped. -/
theorem eraseDups_append_old {n : κ} {names : List κ} (h : n ∈ names) :
    (names ++ [n]).eraseDups = names.eraseDups := by
  rw [List.eraseDups_append]
  simp [List.removeAll, h]

theorem map_fst_filterMap (ps : List (κ × α)) :
    ∀ names : List κ, (∀ n ∈ names, n ∈ ps.map Prod.fst) →
      (names.filterMap fun name => (lastUnder name ps).map fun a => (name, a)).map Prod.fst = names
  | [], _ => rfl
  | n :: names, h => by
    obtain ⟨a, ha⟩ := Option.isSome_iff_exists.mp (lastUnder_isSome.mpr (h n List.mem_cons_self))
    rw [List.filterMap_cons, ha, Option.map_some, List.map_cons,
      map_fst_filterMap ps names fun m hm => h m (List.mem_cons_of_mem n hm)]

/-- The names of the latest things are the names, each once. -/
theorem map_fst_latest (ps : List (κ × α)) :
    (latest ps).map Prod.fst = (ps.map Prod.fst).eraseDups :=
  map_fst_filterMap ps _ fun _ hn => List.mem_eraseDups.mp hn

theorem nodup_latest (ps : List (κ × α)) : ((latest ps).map Prod.fst).Nodup := by
  rw [map_fst_latest]; exact nodup_eraseDups _

/-! ## The latest things -/

theorem latest_map (f : α → β) (ps : List (κ × α)) :
    latest (ps.map fun p => (p.1, f p.2)) = (latest ps).map fun p => (p.1, f p.2) := by
  have hnames : (ps.map fun p => (p.1, f p.2)).map Prod.fst = ps.map Prod.fst := by
    rw [List.map_map]; rfl
  simp only [latest, hnames, lastUnder_map, List.map_filterMap, Option.map_map, Function.comp_def]

theorem mem_latest {name : κ} {a : α} {ps : List (κ × α)} :
    (name, a) ∈ latest ps ↔ lastUnder name ps = some a := by
  simp only [latest, List.mem_filterMap, List.mem_eraseDups, Option.map_eq_some_iff, Prod.mk.injEq]
  constructor
  · rintro ⟨n, -, b, hb, rfl, rfl⟩; exact hb
  · intro h
    exact ⟨name, lastUnder_isSome.mp (by rw [h]; rfl), a, h, rfl, rfl⟩

/-- A new name comes last. -/
theorem latest_append_new {n : κ} {ps : List (κ × α)} (h : n ∉ ps.map Prod.fst) (a : α) :
    latest (ps ++ [(n, a)]) = latest ps ++ [(n, a)] := by
  have hold : ∀ m ∈ (ps.map Prod.fst).eraseDups, n ≠ m := by
    rintro m hm rfl
    exact h (List.mem_eraseDups.mp hm)
  rw [latest, List.map_append, List.map_cons, List.map_nil, eraseDups_append_new h, List.filterMap_append]
  congr 1
  · refine List.filterMap_congr fun m hm => ?_
    rw [lastUnder_append, if_neg (hold m hm)]
  · simp [lastUnder_append]

/-- Where names are distinct, everything is the latest of its name. -/
theorem latest_of_nodup {ps : List (κ × α)} (h : (ps.map Prod.fst).Nodup) : latest ps = ps := by
  induction ps using List.reverseRecOn with
  | nil => rfl
  | append_singleton ps p ih =>
    rw [List.map_append, List.nodup_append] at h
    obtain ⟨hps, -, hnew⟩ := h
    have hp : p.1 ∉ ps.map Prod.fst := fun hmem => hnew p.1 hmem p.1 (List.mem_singleton.mpr rfl) rfl
    rw [latest_append_new hp, ih hps]

/-- A name that is there keeps its place. -/
theorem latest_append_old {n : κ} {ps : List (κ × α)} (h : n ∈ ps.map Prod.fst) (a : α) :
    latest (ps ++ [(n, a)]) = (latest ps).map fun p => if p.1 = n then (n, a) else p := by
  rw [latest, List.map_append, List.map_cons, List.map_nil, eraseDups_append_old h, latest,
    List.map_filterMap]
  refine List.filterMap_congr fun m hm => ?_
  rw [lastUnder_append]
  obtain ⟨b, hb⟩ := Option.isSome_iff_exists.mp (lastUnder_isSome.mpr (List.mem_eraseDups.mp hm))
  by_cases hn : n = m
  · simp [hn, hb]
  · simp [hn, hb, Ne.symm hn]

/-! ## Tables -/

namespace Members

variable {key : κ → Value} (hkey : ∀ a b, (key a).same (key b) = decide (a = b))

include hkey

/-- Writing under a name that is there changes the value there. -/
theorem put_old {k : κ} {ms : List (κ × Value)} (hk : k ∈ ms.map Prod.fst)
    (hd : (ms.map Prod.fst).Nodup) (v : Value) :
    (keyed key ms).put (key k) v = keyed key (ms.map fun m => if m.1 = k then (k, v) else m) := by
  induction ms with
  | nil => cases hk
  | cons m ms ih =>
    obtain ⟨n, w⟩ := m
    rw [List.map_cons, List.nodup_cons] at hd
    show put (key k) v ((key n, w) :: keyed key ms) = _
    rw [put, hkey, List.map_cons]
    by_cases hn : k = n
    · -- no other member has the name, so the rest is not touched
      have hrest : (ms.map fun m => if m.1 = k then (k, v) else m) = ms := by
        refine (List.map_congr_left fun m hm => ?_).trans (List.map_id ms)
        rw [if_neg fun hm' => hd.1 (List.mem_map.mpr ⟨m, hm, by rw [hm', hn]⟩), id]
      rw [hrest, if_pos (by simp [hn]), if_pos hn.symm, hn]
      rfl
    · have hk' : k ∈ ms.map Prod.fst := by
        rcases List.mem_cons.mp hk with h | h
        · exact absurd h hn
        · exact h
      rw [if_neg (by simp [hn]), if_neg (Ne.symm hn), ih hk' hd.2]
      rfl

/-- The table of a list of members has the latest value under each name. -/
theorem ofList_keyed_latest (ps : List (κ × Value)) : ofList (keyed key ps) = keyed key (latest ps) := by
  induction ps using List.reverseRecOn with
  | nil => rfl
  | append_singleton ps p ih =>
    obtain ⟨k, v⟩ := p
    have hstep : ofList (keyed key (ps ++ [(k, v)])) = (ofList (keyed key ps)).put (key k) v := by
      simp [ofList, putAll, keyed]
    rw [hstep, ih]
    by_cases hk : k ∈ ps.map Prod.fst
    · rw [latest_append_old hk, put_old hkey (by rw [map_fst_latest]; exact List.mem_eraseDups.mpr hk)
        (nodup_latest ps)]
    · rw [latest_append_new hk,
        put_new hkey (by rw [map_fst_latest]; exact fun h => hk (List.mem_eraseDups.mp h))]

/-- In a table with different names, what is found is what is listed. -/
theorem get?_keyed_eq_some {ms : List (κ × Value)} (hd : (ms.map Prod.fst).Nodup) (k : κ) (v : Value) :
    (keyed key ms).get? (key k) = some v ↔ (k, v) ∈ ms := by
  induction ms with
  | nil => exact ⟨fun h => (by cases h), fun h => (by cases h)⟩
  | cons m ms ih =>
    obtain ⟨n, w⟩ := m
    rw [List.map_cons, List.nodup_cons] at hd
    show get? (key k) ((key n, w) :: keyed key ms) = some v ↔ _
    rw [get?, hkey, List.mem_cons, Prod.mk.injEq]
    by_cases hk : k = n
    · have hout : (k, v) ∉ ms := fun hmem => hd.1 (List.mem_map.mpr ⟨(k, v), hmem, hk⟩)
      simp [hk, hk ▸ hout, eq_comm]
    · simp [hk, ih hd.2]

/-- What is found in the table of the latest values is the last value under the name. -/
theorem get?_keyed_latest (k : κ) (ps : List (κ × Value)) :
    (keyed key (latest ps)).get? (key k) = lastUnder k ps := by
  refine Option.ext fun v => ?_
  rw [get?_keyed_eq_some hkey (nodup_latest ps), mem_latest]

omit hkey

theorem same_text_eq_decide (s t : String) : (Value.text s).same (.text t) = decide (s = t) := by
  rw [Value.same_text, beq_eq_decide]

theorem find?_named_latest (k : String) (ps : List (String × Value)) :
    (named (latest ps)).find? k = lastUnder k ps := get?_keyed_latest same_text_eq_decide k ps

theorem ofList_named_latest (ps : List (String × Value)) : ofList (named ps) = named (latest ps) :=
  ofList_keyed_latest same_text_eq_decide ps

end Members

end SchemaCatalog
