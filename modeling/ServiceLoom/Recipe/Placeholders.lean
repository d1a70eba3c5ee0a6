import ServiceLoom.Service.Basic
import ServiceLoom.Text.Search

/-!
# Placeholders of file patterns

File patterns name the service they are for. The three placeholders are replaced one after the
other, each in the whole text.
-/

namespace ServiceLoom

def packageMark : String := "\x7bpackage\x7d"

def serviceMark : String := "\x7bservice\x7d"

def aliasMark : String := "\x7balias\x7d"

def substitute (mark value text : String) : String :=
  String.ofList (Text.replaceAll mark.toList value.toList text.toList)

def expandPlaceholders (pattern : String) (s : Service) : String :=
  substitute aliasMark s.aliasName
    (substitute serviceMark s.name (substitute packageMark s.package pattern))

end ServiceLoom
