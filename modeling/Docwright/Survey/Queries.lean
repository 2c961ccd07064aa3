/-!
# Queries of the grammar service

A query is a pattern over syntax trees whose captures are named with `@`. For
C++ sources there are queries for include paths, functions and classes.
-/

namespace Docwright.Survey

/-- The paths of include directives. -/
def includeQuery : String :=
  String.intercalate "\n" [
    "",
    "(preproc_include path: (string_literal) @include_path)",
    "(preproc_include path: (system_lib_string) @include_path)",
    ""]

/-- The names of functions that are defined. -/
def functionQuery : String :=
  String.intercalate "\n" [
    "",
    "(function_definition declarator: (function_declarator declarator: (identifier) " ++
      "@function_name))",
    "(function_definition declarator: (identifier) @function_name)",
    ""]

/-- The names of classes and structures. -/
def classQuery : String :=
  String.intercalate "\n" [
    "",
    "(class_specifier name: (type_identifier) @class_name)",
    "(struct_specifier name: (type_identifier) @class_name)",
    ""]

def sourceExtensions : List String := [".cpp", ".h", ".i"]

end Docwright.Survey
