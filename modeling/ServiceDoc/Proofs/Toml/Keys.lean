import ServiceDoc.Toml.Reader
import ServiceDoc.Proofs.OpenApi.Table

/-! Keys of a table that is read. No rule by which a table may be filled lets a key in twice: a key
that is there keeps its place, and a header or a dotted key changes the value of one key. What a file
is read to has therefore each of its keys once. -/
namespace ServiceDoc.Toml

open OpenApi (Table)

namespace Entries

/-- Each key is there once. -/
def Distinct (es : Entries) : Prop := (Table.names es).Nodup

theorem set_eq_insert (key : String) (item : Item) (es : Entries) :
    set key item es = Table.insert key item es := by
  induction es with
  | nil => rfl
  | cons e rest ih =>
      obtain ⟨k, old⟩ := e
      rw [set, Table.insert, ih]

namespace Distinct

variable {es fs : Entries}

theorem set (h : Distinct es) (key : String) (item : Item) : Distinct (Entries.set key item es) := by
  rw [set_eq_insert]
  exact Table.nodup_names_insert h key item

theorem remove (h : Distinct es) (key : String) : Distinct (Entries.remove key es) :=
  (List.filter_sublist.map Prod.fst).nodup h

theorem add (h : Distinct es) {key : String} {item : Item} (added : Entries.add key item es = some fs) :
    Distinct fs := by
  unfold Entries.add at added
  split at added
  · cases added
  · cases added
    exact h.set key item

/-- What is made of the value of a key is put in the key's place. -/
theorem set_of_bind (h : Distinct es) {key : String} {found : Option Entries} {item : Entries → Item}
    (changed : (found.bind fun inside => some (Entries.set key (item inside) es)) = some fs) :
    Distinct fs := by
  obtain ⟨inside, -, same⟩ := Option.bind_eq_some_iff.mp changed
  exact Option.some.inj same ▸ h.set key (item inside)

/-- A change that lets no key in twice lets none in twice below a header. -/
theorem atHeader {change : Entries → Option Entries}
    (changes : ∀ {es fs : Entries}, Distinct es → change es = some fs → Distinct fs)
    (h : Distinct es) {path : List String} (changed : Entries.atHeader change path es = some fs) :
    Distinct fs := by
  cases path with
  | nil => exact changes h changed
  | cons key path =>
      unfold Entries.atHeader at changed
      split at changed
      · exact h.set_of_bind changed
      · exact h.set_of_bind changed
      · split at changed
        · cases changed
        · exact h.set_of_bind changed
      · cases changed

theorem addDotted (h : Distinct es) {last : String} {item : Item} {path : List String}
    {reached : Option Origin} (added : Entries.addDotted last item path reached es = some fs) :
    Distinct fs := by
  cases path with
  | nil =>
      unfold Entries.addDotted at added
      split at added
      · exact h.add added
      · cases added
  | cons key path =>
      unfold Entries.addDotted at added
      split at added
      · exact h.set_of_bind added
      · split at added
        · cases added
        · exact h.set_of_bind added
      · split at added
        · cases added
        · exact h.set_of_bind added
      · cases added

end Distinct
end Entries

namespace Draft

/-- What is finished has its keys once, and so has the table that is being filled if it is the file's
own. -/
structure Distinct (d : Draft) : Prop where
  finished : Entries.Distinct d.finished
  current : d.place = .top → Entries.Distinct d.current

theorem distinct_empty : Distinct {} := ⟨List.nodup_nil, fun _ => List.nodup_nil⟩

variable {d e : Draft}

theorem Distinct.finish (h : d.Distinct) {es : Entries} (done : d.finish = some es) :
    Entries.Distinct es := by
  unfold Draft.finish at done
  split at done
  next top => exact Option.some.inj done ▸ h.current top
  next => exact h.finished.atHeader (fun inside added => inside.add added) done
  next =>
    refine h.finished.atHeader (fun inside added => ?_) done
    split at added
    · exact Option.some.inj added ▸ inside.set _ _
    · exact Option.some.inj added ▸ inside.set _ _
    · cases added

theorem Distinct.add (h : d.Distinct) {path : List String} {name : String} {item : Item}
    (added : d.add path name item = some e) : e.Distinct := by
  obtain ⟨current, filled, same⟩ := Option.bind_eq_some_iff.mp added
  cases same
  exact ⟨h.finished, fun top => (h.current top).addDotted filled⟩

/-- The tables on the way to a header are made, and nothing else. -/
theorem Distinct.reached (h : d.Distinct) {path : List String} {finished reached : Entries}
    (done : d.finish = some finished) (way : Entries.atHeader some path finished = some reached) :
    Entries.Distinct reached :=
  (h.finish done).atHeader (fun inside same => Option.some.inj same ▸ inside) way

theorem Distinct.startTable (h : d.Distinct) {path : List String} {name : String}
    (started : d.startTable path name = some e) : e.Distinct := by
  obtain ⟨finished, done, started⟩ := Option.bind_eq_some_iff.mp started
  obtain ⟨reached, way, started⟩ := Option.bind_eq_some_iff.mp started
  have distinct := h.reached done way
  split at started
  · exact Option.some.inj started ▸ ⟨distinct, fun top => nomatch top⟩
  · obtain ⟨rest, removed, same⟩ := Option.bind_eq_some_iff.mp started
    refine Option.some.inj same ▸ ⟨?_, fun top => nomatch top⟩
    exact distinct.atHeader (fun inside same => Option.some.inj same ▸ inside.remove name) removed
  · cases started

theorem Distinct.startElement (h : d.Distinct) {path : List String} {name : String}
    (started : d.startElement path name = some e) : e.Distinct := by
  obtain ⟨finished, done, started⟩ := Option.bind_eq_some_iff.mp started
  obtain ⟨reached, way, started⟩ := Option.bind_eq_some_iff.mp started
  have distinct := h.reached done way
  split at started
  · exact Option.some.inj started ▸ ⟨distinct, fun top => nomatch top⟩
  · exact Option.some.inj started ▸ ⟨distinct, fun top => nomatch top⟩
  · cases started

end Draft

theorem distinct_line {d e : Draft} (h : d.Distinct) {cs rest : List Char}
    (read : line d cs = some (e, rest)) : e.Distinct := by
  unfold line at read
  split at read
  · obtain ⟨⟨⟨path, name⟩, after⟩, -, read⟩ := Option.bind_eq_some_iff.mp read
    obtain ⟨next, started, same⟩ := Option.bind_eq_some_iff.mp read
    cases same
    exact h.startElement started
  · obtain ⟨⟨⟨path, name⟩, after⟩, -, read⟩ := Option.bind_eq_some_iff.mp read
    obtain ⟨next, started, same⟩ := Option.bind_eq_some_iff.mp read
    cases same
    exact h.startTable started
  · obtain ⟨after, -, same⟩ := Option.bind_eq_some_iff.mp read
    cases same
    exact h
  · cases read
    exact h
  · obtain ⟨after, -, same⟩ := Option.bind_eq_some_iff.mp read
    cases same
    exact h
  · obtain ⟨⟨⟨path, name, item⟩, after⟩, -, read⟩ := Option.bind_eq_some_iff.mp read
    obtain ⟨ended, -, read⟩ := Option.bind_eq_some_iff.mp read
    obtain ⟨next, added, same⟩ := Option.bind_eq_some_iff.mp read
    cases same
    exact h.add added

theorem distinct_linesFrom {d e : Draft} (h : d.Distinct) {fuel : Nat} {cs : List Char}
    (read : linesFrom d fuel cs = some e) : e.Distinct := by
  induction fuel generalizing d cs with
  | zero =>
      unfold linesFrom at read
      split at read
      · exact Option.some.inj read ▸ h
      · cases read
  | succ fuel ih =>
      unfold linesFrom at read
      split at read
      · exact Option.some.inj read ▸ h
      · obtain ⟨⟨next, rest⟩, first, read⟩ := Option.bind_eq_some_iff.mp read
        exact ih (distinct_line h first) read

/-- A file is read to a table with each of its keys once. -/
theorem distinct_of_read {s : String} {es : Entries} (h : read s = some es) : es.Distinct := by
  obtain ⟨d, lines, done⟩ := Option.bind_eq_some_iff.mp h
  exact (distinct_linesFrom Draft.distinct_empty lines).finish done

end ServiceDoc.Toml
