import ServiceLoom.Error
import ServiceLoom.Tag.Options
import ServiceLoom.Template.Parser
import ServiceLoom.Template.Render

/-!
# Named templates

A name stands for the last well-formed text registered under it. Templates may include each other by
these names, whatever the order of registration.
-/

namespace ServiceLoom

structure TemplateStore where
  templates : List (String × Template) := []

namespace TemplateStore

def find? (store : TemplateStore) (name : String) : Option Template := store.templates.lookup name

def has (store : TemplateStore) (name : String) : Bool := (store.find? name).isSome

def put (store : TemplateStore) (name : String) (template : Template) : TemplateStore :=
  ⟨putEntry name (fun _ => template) store.templates⟩

def register (store : TemplateStore) (name source : String) : Except Error TemplateStore :=
  match Template.parse? source with
  | some template => .ok (store.put name template)
  | none => .error (.template s!"failed to register template '{name}'")

def render (store : TemplateStore) (name : String) (data : Json) : Except Error String :=
  let failure : Error := .template s!"rendering '{name}' failed"
  match store.find? name with
  | none => .error failure
  | some template =>
    match Template.render store.find? name template data with
    | .ok text => .ok text
    | .error _ => .error failure

theorem find?_put_self (store : TemplateStore) (name : String) (template : Template) :
    (store.put name template).find? name = some template := by
  simp [find?, put, lookup_putEntry_self]

theorem find?_put_of_ne (store : TemplateStore) {name other : String} (template : Template)
    (h : other ≠ name) : (store.put name template).find? other = store.find? other := by
  simp [find?, put, lookup_putEntry_of_ne _ _ h]

end TemplateStore

end ServiceLoom
