/-
# `Loader.Contract` — what the toolchain and the runtime agree on

The generated loader is an opening, a payload and a closing.  The opening and
the closing are known up to whitespace and three identifiers; the payload
defines the function `__initialize`.  The Screeps runtime has no use for the
opening and the closing: it takes the payload followed by a call that hands
the compiled module to `__initialize`.
-/
import WasmPackager.Bytes

namespace WasmPackager.Loader

/-- The token that stands for an identifier in the templates below. -/
def placeholder : Bytes := ascii "XXX"

/-- The name of the function every payload defines. -/
def entryPoint : Bytes := ascii "__initialize"

def openingTemplate : Bytes :=
  Bytes.unlines [
    ascii r#""use strict";"#,
    ascii "",
    ascii r#"if( typeof Rust === "undefined" ) {"#,
    ascii r"    var Rust = {};",
    ascii r"}",
    ascii "",
    ascii r"(function( root, factory ) {",
    ascii r#"    if( typeof define === "function" && define.amd ) {"#,
    ascii "        define( [], factory );",
    ascii r#"    } else if( typeof module === "object" && module.exports ) {"#,
    ascii "        module.exports = factory();",
    ascii r"    } else {",
    ascii "        Rust.XXX = factory();",
    ascii r"    }",
    ascii r"}( this, function() {"] ++
  ascii "    "

def closingTemplate : Bytes :=
  Bytes.unlines [
    ascii "",
    ascii "",
    ascii "",
    ascii r#"    if( typeof window === "undefined" ) {"#,
    ascii r#"        const fs = require( "fs" );"#,
    ascii r#"        const path = require( "path" );"#,
    ascii r#"        const wasm_path = path.join( __dirname, "XXX.wasm" );"#,
    ascii "        const buffer = fs.readFileSync( wasm_path );",
    ascii "        const mod = new WebAssembly.Module( buffer );",
    ascii "",
    ascii "        return __initialize( mod, false );",
    ascii r"    } else {",
    ascii r#"        return fetch( "XXX.wasm" )"#,
    ascii "            .then( response => response.arrayBuffer() )",
    ascii "            .then( bytes => WebAssembly.compile( bytes ) )",
    ascii "            .then( mod => __initialize( mod, true ) );",
    ascii r"    }",
    ascii r"}));"]

/-- The call that ends an adapted loader. -/
def initializeCall : Bytes :=
  ascii "\n\n__initialize(new WebAssembly.Module(require('compiled')), false);\n"

def binaryExtension : Bytes := ascii ".wasm"

def scriptExtension : Bytes := ascii ".js"

/-- The target the toolchain compiles for. -/
def targetTriple : Bytes := ascii "wasm32-unknown-unknown"

/-- The directory below the project root that holds everything that is built. -/
def targetDir : Bytes := ascii "target"

def binaryName : Bytes := ascii "compiled.wasm"

def scriptName : Bytes := ascii "main.js"

end WasmPackager.Loader
