-- The registered migrations. Every version is a text, none is empty and none comes
-- twice; a set of declarations that breaks this is refused as a whole.
import SchemaLedger.Migration.Draft

namespace SchemaLedger

structure Catalog where
  /-- In the order in which they were registered. -/
  entries : List Migration
  distinct : (entries.map Migration.version).Nodup
  named : ∀ m ∈ entries, m.version ≠ ""

namespace Catalog

def empty : Catalog := ⟨[], List.nodup_nil, fun _ h => by simp at h⟩

def versions (c : Catalog) : List String := c.entries.map Migration.version

/-- The migration of a version. -/
def find? (c : Catalog) (version : String) : Option Migration :=
  c.entries.find? fun m => m.version == version

theorem not_mem_of_find?_eq_none {c : Catalog} {v : String} (h : c.find? v = none) :
    v ∉ c.versions := by
  simp only [find?, List.find?_eq_none, beq_iff_eq] at h
  simp only [versions, List.mem_map, not_exists, not_and]
  exact h

theorem version_ne_empty_of_accept? {d : Draft} {m : Migration} (h : d.accept? = some m) :
    m.version ≠ "" := by
  simp only [Draft.accept?] at h
  split at h
  · split at h
    · simp at h
    · rename_i hv
      obtain rfl := Option.some.inj h
      simpa using hv
  · simp at h

/-- Adds a declared migration. -/
def add (c : Catalog) (d : Draft) : Except RegistrationFault Catalog :=
  match hm : d.accept? with
  | none => .error (.noVersion d.quoted)
  | some m =>
    match hf : c.find? m.version with
    | some old => .error (.duplicateVersion m.version old.quoted d.quoted)
    | none =>
      .ok ⟨c.entries ++ [m],
        by
          have := not_mem_of_find?_eq_none hf
          simp only [List.map_append, List.map_cons, List.map_nil]
          exact List.nodup_append.2 ⟨c.distinct, by simp, fun a ha b hb =>
            by rw [List.mem_singleton.1 hb]; exact fun e => this (e ▸ ha)⟩,
        by
          intro x hx
          rcases List.mem_append.1 hx with hx | hx
          · exact c.named x hx
          · rw [List.mem_singleton.1 hx]
            exact version_ne_empty_of_accept? hm⟩

/-- The catalog of declared migrations. -/
def ofDrafts (ds : List Draft) : Except RegistrationFault Catalog := ds.foldlM add empty

/-- The migrations by version. -/
def sorted (c : Catalog) : List Migration := c.entries.mergeSort fun a b => a.version ≤ b.version

end Catalog
end SchemaLedger
