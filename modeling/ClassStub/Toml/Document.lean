import ClassStub.Toml.Statement

/-!
# TOML documents

The statements of a document build its table one after the other.  An entry goes
to the table of the last header, before any header to the document itself.  A
statement that would define something a second time has no meaning
(`Toml.Document.add`).
-/

namespace ClassStub.Toml

/-- A document under construction: its table, and the path of the last header. -/
structure Document where
  header : List String := []
  table : Table := []

namespace Document

/-- Carries out a statement. -/
def add (document : Document) : Statement → Option Document
  | .entry name value => do
    let table ← Table.alter false (Table.define name.path name.key value) document.header
      .headed document.table
    return { document with table }
  | .table name => do
    let table ← Table.alter false (fun _ => Table.openTable name.key) name.path .headed
      document.table
    return { header := name.path ++ [name.key], table }
  | .element name => do
    let table ← Table.alter false (fun _ => Table.openElement name.key) name.path .headed
      document.table
    return { header := name.path ++ [name.key], table }

/-- The document that statements build. -/
def ofStatements? (statements : List Statement) : Option Document :=
  statements.foldlM add {}

end Document

/-- The table that a text stands for, if it is well-formed. -/
def parse? (text : String) : Option Table := do
  let statements ← statements text.toList
  let document ← Document.ofStatements? statements
  return document.table

end ClassStub.Toml
