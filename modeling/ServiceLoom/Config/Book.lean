import ServiceLoom.Config.Basic
import ServiceLoom.Recipe.Book
import ServiceLoom.Recipe.Placeholders
import ServiceLoom.Template.View

/-!
# Recipes of a configuration

Each configured artifact is one recipe. The templates of all artifacts go into one store, each under
the name of its artifact and of its part, and are parsed before any recipe is made.
-/

namespace ServiceLoom

namespace ArtifactConfig

def serviceTemplateName (a : ArtifactConfig) : String := a.name ++ "/service"

def methodTemplateName (a : ArtifactConfig) : String := a.name ++ "/method"

/-- The named templates of an artifact. -/
def templates (a : ArtifactConfig) : List (String × String) :=
  (a.serviceTemplate.map (a.serviceTemplateName, ·)).toList ++
    (a.methodTemplate.map (a.methodTemplateName, ·)).toList

def serviceGenerators (store : TemplateStore) (a : ArtifactConfig) : List ServiceGenerator :=
  if a.serviceTemplate.isSome then [store.serviceGenerator a.serviceTemplateName "service"] else []

def methodGenerators (store : TemplateStore) (a : ArtifactConfig) : List MethodGenerator :=
  if a.methodTemplate.isSome then
    [{ store.methodGenerator a.methodTemplateName "method" with
      extract := a.methodFlag.map methodsWithFlag }]
  else []

def recipe (store : TemplateStore) (a : ArtifactConfig) : Recipe where
  fileType := a.fileType
  path := .ofService (expandPlaceholders a.path)
  file := .ofService (expandPlaceholders a.file)
  overwrite := .const a.overwrite
  merge := .const a.merge
  conditions := a.condition.toList.map Condition.flagAnywhere
  serviceGenerators := a.serviceGenerators store
  methodGenerators := a.methodGenerators store
  create := bufferCreator a.header

end ArtifactConfig

namespace Config

def templateStore (c : Config) : Except Error TemplateStore :=
  (c.artifacts.flatMap ArtifactConfig.templates).foldlM
    (fun store template => store.register template.1 template.2) {}

def book (c : Config) : Except Error RecipeBook := do
  let store ← c.templateStore
  c.artifacts.foldlM (fun book a => book.register a.name (a.recipe store)) {}

end Config

end ServiceLoom
