import HeaderKeys.KeyTable

/-! The generated source file: a fixed beginning, the four constants in the order of
output, a fixed end. It exists only for a complete table. -/

namespace HeaderKeys

/-- Where the file belongs, seen from the project's root. -/
def defaultOutput : Text := "src/com/aregner/pandora/PandoraKeys.java".toList

def packageName : Text := "com.aregner.pandora".toList

def className : Text := "PandoraKeys".toList

namespace ClassSource

def licenseHeader : Text :=
  ("/* Pandoroid Radio - open source pandora.com client for android\n" ++
    " * Copyright (C) 2011  Andrew Regner <andrew@aregner.com>\n" ++
    " * \n" ++
    " * This program is free software; you can redistribute it and/or\n" ++
    " * modify it under the terms of the GNU General Public License\n" ++
    " * as published by the Free Software Foundation; either version 2\n" ++
    " * of the License, or (at your option) any later version.\n" ++
    " * \n" ++
    " * This program is distributed in the hope that it will be useful,\n" ++
    " * but WITHOUT ANY WARRANTY; without even the implied warranty of\n" ++
    " * MERCHANTABILITY or FITNESS FOR A PARTICULAR PURPOSE.  See the\n" ++
    " * GNU General Public License for more details.\n" ++
    " * \n" ++
    " * You should have received a copy of the GNU General Public License\n" ++
    " * along with this program; if not, write to the Free Software\n" ++
    " * Foundation, Inc., 51 Franklin Street, Fifth Floor, Boston, MA  02110-1301, USA.\n" ++
    " */\n").toList

def attribution : Text :=
  ("/* \n" ++
    " * These keys were extracted from the Pithos source code, credited to ZigZagJoe.\n" ++
    " * \n" ++
    " * Pithos is released under the GNU GPL v3, Copyright (C) 2010 Kevin Mehall <km@kevinmehall.net>\n" ++
    " */\n").toList

def opening : Text :=
  licenseHeader ++ "\n".toList ++ attribution ++ "\n".toList
    ++ "package ".toList ++ packageName ++ ";\n\n".toList
    ++ "public final class ".toList ++ className ++ " \x7b\n".toList

/-- One constant on lines of its own. -/
def member (declaration : Text) : Text := "\t".toList ++ declaration ++ "\n".toList

def separator : Text := "\t\n".toList

def closing : Text := "\x7d\n\n".toList

def layout (declarations : List Text) : Text :=
  opening ++ joinWith separator (declarations.map member) ++ closing

end ClassSource

structure IncompleteKeys where
  found : List KeyName
deriving DecidableEq, Repr

namespace KeyTable

/-- The declarations in the order of output. A table of the required size lacks none,
so the lookup itself never fails. -/
def orderedDeclarations (table : KeyTable) : Except IncompleteKeys (List Text) :=
  if table.isComplete then
    KeyName.all.mapM fun key => match table.get? key with
      | some declaration => .ok declaration
      | none => .error ⟨table.names⟩
  else .error ⟨table.names⟩

def render (table : KeyTable) : Except IncompleteKeys Text :=
  table.orderedDeclarations.map ClassSource.layout

end KeyTable

end HeaderKeys
